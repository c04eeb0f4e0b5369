import Lakers.Parser

/-!
# What `parse_message_2` accepts

`parse_message_2` accepts exactly the buffers that hold one byte string and nothing after it, whose head gives
the length inline or in one following byte and whose content has at least `P256_ELEM_LEN` bytes; it splits the
content there into G_Y and CIPHERTEXT_2, and answers every other buffer with `ParsingError`
(`parseMessage2_iff_message2Form`). RFC 8949 also allows heads with the length in 2, 4 or 8 bytes (`0x59` to
`0x5B`); the decoder does not read them, so a message_2 written so is rejected (`parseMessage2_twoByteLength`).
-/

namespace Lakers

namespace EdhocParser

open CBORDecoder Cbor Outcome

/-- message_2 as `parse_message_2` reads it: the slice `s` is a byte string with content `c`, its head giving the
length inline or in one byte, and `c` holds at least `P256_ELEM_LEN` bytes. -/
def Message2Form (s c : List UInt8) : Prop :=
  ∃ hd, ShortHead cborMajorByteString c.length hd ∧ s = hd ++ c ∧ p256ElemLen ≤ c.length

theorem parseMessage2_of_message2Form {m : EdhocMessageBuffer} {s c : List UInt8} (hs : m.asSlice = some s)
    (hc : Message2Form s c) :
    ∃ gY ct, parseMessage2 m = .ok (gY, ct) ∧ gY.toList = c.take p256ElemLen ∧
      ct.asSlice = some (c.drop p256ElemLen) := by
  obtain ⟨hd, hh, rfl, h32⟩ := hc
  have hlen : (c.drop p256ElemLen).length ≤ maxMessageSizeLen := by
    have := EdhocMessageBuffer.length_of_asSlice hs
    have := EdhocMessageBuffer.valid_of_asSlice hs
    simp only [List.length_drop, List.length_append] at *
    unfold EdhocMessageBuffer.Valid at *
    omega
  obtain ⟨-, ct, hct, -, hsl⟩ | ⟨h, -⟩ := EdhocMessageBuffer.fillWithSlice_spec EdhocMessageBuffer.new
    (c.drop p256ElemLen)
  · have hk : ((c.drop 0).take (p256ElemLen - 0)).length = p256ElemLen := by
      simp only [List.drop_zero, Nat.sub_zero, List.length_take]; omega
    have hb := bytes_cursor hh [] []
    rw [List.append_nil] at hb
    refine ⟨⟨_, hk⟩, ct, ?_, by simp, hsl⟩
    unfold parseMessage2
    simp only [hs, lift_some, ok_bind, new_eq_cursor, tryRead_of_ok hb, finished_cursor, List.isEmpty_nil, if_true]
    simp only [getRange, Nat.zero_le, h32, and_self, if_true, copyFromSlice_of_length _ hk, lift_some, ok_bind,
      getFrom, hct, pure_eq]
  · exact absurd hlen h

theorem parseMessage2_of_not_message2Form {m : EdhocMessageBuffer} {s : List UInt8} (hs : m.asSlice = some s)
    (hc : ¬ ∃ c, Message2Form s c) : parseMessage2 m = .err .parsingError := by
  unfold parseMessage2
  simp only [hs, lift_some, ok_bind, new_eq_cursor]
  unfold tryRead
  rcases hb : bytes (cursor [] s) with ⟨c, d⟩ | ⟨⟨⟩, d⟩
  · obtain ⟨hd, ⟨hh, hp⟩, rfl⟩ := (bytes_ok_iff _ _ _).1 hb
    rw [ok_bind]
    split_ifs with hf
    · have heq : hd ++ c = s := by
        rw [rest_cursor] at hp
        refine hp.eq_of_length ?_
        simp only [finished, advance, cursor, List.nil_append, List.length_nil, Nat.zero_add, beq_iff_eq] at hf
        simpa using hf
      rcases hg : getRange c 0 p256ElemLen with _ | key
      · rfl
      · exact absurd ⟨c, hd, hh, heq.symm, (getRange_eq_some.1 hg).2.1⟩ hc
    · rfl
  · rfl

/-- `parse_message_2` returns `Ok` exactly on a byte string with a short head, holding at least `P256_ELEM_LEN`
bytes and followed by nothing; G_Y is the first `P256_ELEM_LEN` bytes of its content and CIPHERTEXT_2 the rest.
Every other buffer within its capacity is answered with `ParsingError`. -/
theorem parseMessage2_iff_message2Form (m : EdhocMessageBuffer) (s : List UInt8) (hs : m.asSlice = some s) :
    (∀ c, Message2Form s c → ∃ gY ct, parseMessage2 m = .ok (gY, ct) ∧ gY.toList = c.take p256ElemLen ∧
      ct.asSlice = some (c.drop p256ElemLen)) ∧
    ((¬ ∃ c, Message2Form s c) → parseMessage2 m = .err .parsingError) :=
  ⟨fun _ hc => parseMessage2_of_message2Form hs hc, parseMessage2_of_not_message2Form hs⟩

set_option maxRecDepth 10000 in
theorem parseMessage2_iff_message2Form_key :
    (⟨⟨[0x58, 0x22] ++ List.replicate 190 7, by decide⟩, 36⟩ : EdhocMessageBuffer).asSlice =
      some ([0x58, 0x22] ++ List.replicate 34 7) ∧
    (∀ c, Message2Form ([0x58, 0x22] ++ List.replicate 34 7) c → ∃ gY ct,
      parseMessage2 ⟨⟨[0x58, 0x22] ++ List.replicate 190 7, by decide⟩, 36⟩ = .ok (gY, ct) ∧
      gY.toList = c.take p256ElemLen ∧ ct.asSlice = some (c.drop p256ElemLen)) ∧
    ((¬ ∃ c, Message2Form ([0x58, 0x22] ++ List.replicate 34 7) c) →
      parseMessage2 ⟨⟨[0x58, 0x22] ++ List.replicate 190 7, by decide⟩, 36⟩ = .err .parsingError) :=
  ⟨by rfl, parseMessage2_iff_message2Form _ _ (by rfl)⟩

set_option maxRecDepth 10000 in
/-- A message_2 whose byte string gives its length in two bytes (`59 00 20`, then 32 bytes) is, by RFC 8949, one
definite-length byte string of 32 bytes with nothing after it; `parse_message_2` rejects it. -/
theorem parseMessage2_twoByteLength :
    ¬ ∀ m : EdhocMessageBuffer, m.len ≤ maxMessageSizeLen →
      ((∃ s c, m.asSlice = some s ∧ item s = some (.bstr c, []) ∧ p256ElemLen ≤ c.length) ↔
        ∃ r, parseMessage2 m = .ok r) := by
  intro h
  obtain ⟨r, hr⟩ := (h ⟨⟨[0x59, 0x00, 0x20] ++ List.replicate 189 0, by decide⟩, 35⟩ (by decide)).1
    ⟨[0x59, 0x00, 0x20] ++ List.replicate 32 0, List.replicate 32 0, by rfl, by rfl, by decide⟩
  have he : parseMessage2 ⟨⟨[0x59, 0x00, 0x20] ++ List.replicate 189 0, by decide⟩, 35⟩ = .err .parsingError := by
    rfl
  rw [he] at hr
  cases hr

end EdhocParser

end Lakers
