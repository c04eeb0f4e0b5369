import Lakers.Parser.Safety
import Lakers.Parser.RoundTrip

/-!
# What the parsers accept is well formed

The converse of the round trips: whatever `parse_message_1`, `decode_plaintext_2` and `decode_plaintext_3` accept
is, as RFC 8949 reads it, the sequence of items of their fields, and they return the values those items carry
(`parseMessage1_sound`, `decodePlaintext2_sound`, `decodePlaintext3_sound`). The EAD bytes after the fixed fields
are the encoding `encodeEad` of an optional valid EAD item, the one returned (`parseEadTail_sound`).

The suites of an accepted SUITES_I are one unsigned integer, or an array head followed by that many unsigned
integers (`SuitesItems`); the count of such an array is bounded by `SUITES_LEN` only, not below
(`Lakers.Parser.Guards`). Each step rests on a read taking exactly one item (`item_of_u8`, `item_of_bytes`,
`item_of_array`).
-/

namespace Lakers

namespace EdhocParser

open CBORDecoder Cbor Outcome

/-! ## SUITES_I -/

/-- SUITES_I as RFC 8949 reads it: the suites `ss` are one unsigned integer, or the head of an array of them
followed by its elements; `r` is what follows. -/
def SuitesItems (s ss r : List UInt8) : Prop :=
  (∃ x, ss = [x] ∧ item s = some (.uint x.toNat, r)) ∨
    ∃ r₁, item s = some (.array ss.length, r₁) ∧ items ss.length r₁ = some (ss.map (fun x => .uint x.toNat), r)

/-- The loop of `parse_suites_i` reads `k` unsigned integer items and writes them into `suites_i` from index `i`. -/
theorem parseSuitesLoop_sound : ∀ (k i : Nat) (v : BytesSuites) (d : CBORDecoder) {v' : BytesSuites}
    {d' : CBORDecoder}, parseSuitesLoop k i v d = .ok (v', d') →
    ∃ ss : List UInt8, ss.length = k ∧ items k d.rest = some (ss.map (fun x => .uint x.toNat), d'.rest) ∧
      v'.toList.take (i + k) = v.toList.take i ++ ss
  | 0, i, v, d, v', d', h => by cases h; exact ⟨[], rfl, rfl, by simp⟩
  | k + 1, i, v, d, v', d', h => by
    obtain ⟨⟨s, d₁⟩, h₁, h⟩ := bind_eq_ok.1 h
    obtain ⟨w, h₂, h⟩ := bind_eq_ok.1 h
    obtain ⟨hi, rfl⟩ := indexSet_eq_some (lift_eq_ok.1 h₂)
    obtain ⟨ss, hl, hs, ht⟩ := parseSuitesLoop_sound k (i + 1) _ d₁ h
    refine ⟨s :: ss, by simp [hl], ?_, ?_⟩
    · rw [items_succ (item_of_u8 (tryRead_eq_ok.1 h₁)), hs]
      rfl
    · rw [show i + (k + 1) = i + 1 + k by omega, ht, take_succ_set, List.append_assoc]
      rfl

theorem parseSuitesI_sound {d d' : CBORDecoder} {v : BytesSuites} {n : Nat} (h : parseSuitesI d = .ok (v, n, d')) :
    n ≤ suitesLen ∧ SuitesItems d.rest (v.toList.take n) d'.rest := by
  unfold parseSuitesI at h
  split at h
  · split_ifs at h
    · obtain ⟨⟨s, d₁⟩, h₁, h⟩ := bind_eq_ok.1 h
      obtain ⟨w, h₂, h⟩ := bind_eq_ok.1 h
      obtain ⟨hi, rfl⟩ := indexSet_eq_some (lift_eq_ok.1 h₂)
      cases h
      exact ⟨by decide, .inl ⟨s, take_succ_set _ hi s, item_of_u8 (tryRead_eq_ok.1 h₁)⟩⟩
    · obtain ⟨⟨k, d₁⟩, h₁, h⟩ := bind_eq_ok.1 h
      dsimp only at h
      split_ifs at h with hk
      obtain ⟨⟨w, d₂⟩, h₂, h⟩ := bind_eq_ok.1 h
      cases h
      obtain ⟨ss, hl, hs, ht⟩ := parseSuitesLoop_sound _ 0 _ d₁ h₂
      rw [Nat.zero_add, List.take_zero, List.nil_append] at ht
      dsimp only
      refine ⟨hk, .inr ⟨d₁.rest, ?_, ?_⟩⟩ <;> rw [ht, hl]
      · exact item_of_array (tryRead_eq_ok.1 h₁)
      · exact hs
  · cases h

/-! ## EAD -/

/-- A label byte `parse_ead` accepts is the label byte of a valid EAD item with the label and criticality it
returns. -/
theorem eadLabel_sound {b l : UInt8} {c : Bool} (h : eadLabel b = .ok (l, c)) (value : List UInt8) :
    (⟨l, c, value⟩ : Ead).Valid ∧ (⟨l, c, value⟩ : Ead).labelByte = b := by
  unfold eadLabel at h
  split_ifs at h with h₁ h₂
  · cases h
    exact ⟨(isU8_iff b).1 h₁, rfl⟩
  · obtain ⟨x, hx, h⟩ := bind_eq_ok.1 h
    cases h
    unfold subU8 at hx
    have hb := (isI8_iff b).1 h₂
    split_ifs at hx with hle
    cases lift_eq_ok.1 hx
    have hsub : (b - (cborNegInt1ByteStart - 1)).toNat = b.toNat - 31 := by
      rw [UInt8.toNat_sub_of_le _ _ hle]; rfl
    refine ⟨show 1 ≤ _ ∧ _ ≤ 24 by rw [hsub]; omega, ?_⟩
    show 0x1F + (b - (cborNegInt1ByteStart - 1)) = b
    exact UInt8.toNat.inj (by rw [UInt8.toNat_add, hsub]; simp only [UInt8.toNat_lit]; omega)

/-- What `parse_ead` accepts is the encoding of a valid EAD item, and it returns that item. -/
theorem parseEad_sound {s : List UInt8} {ead : Option EADItem} (h : parseEad s = .ok ead) :
    ∃ e : Ead, e.Valid ∧ s = e.encode ∧ ∃ i, ead = some i ∧ e.Parsed i := by
  rcases s with _ | ⟨b, tail⟩
  · cases h
  · rcases hl : eadLabel b with ⟨l, c⟩ | e | _
    · obtain ⟨hv, hb⟩ := eadLabel_sound hl tail
      by_cases ht : tail.length ≤ maxMessageSizeLen
      · obtain ⟨v, hp, hval⟩ := parseEad_cons hl ht
        rw [hp] at h
        cases h
        exact ⟨⟨l, c, tail⟩, hv, by rw [Ead.encode, hb], _, rfl, rfl, rfl, hval⟩
      · obtain ⟨hg, -⟩ | ⟨-, e, he⟩ := EdhocMessageBuffer.fillWithSlice_spec EdhocMessageBuffer.new tail
        · exact absurd hg ht
        · simp only [parseEad, hl, if_pos (show tail.length > 0 by omega), he, unwrapMut, lift_none, panic_bind] at h
          cases h
    · simp only [parseEad, hl] at h
      cases h
    · simp only [parseEad, hl] at h
      cases h

/-- At the end of a message, the remaining bytes are the encoding of an optional valid EAD item, the one
returned. -/
theorem parseEadTail_sound {d : CBORDecoder} {ead : Option EADItem} (h : parseEadTail d.buf.length d = .ok ead) :
    ∃ e : Option Ead, d.rest = encodeEad e ∧ (∀ x ∈ e, x.Valid) ∧ Option.Rel Ead.Parsed e ead := by
  unfold parseEadTail at h
  split_ifs at h with h₁ h₂
  · obtain ⟨r, hr, h⟩ := bind_eq_ok.1 h
    have hr : d.rest = r := by
      unfold remainingBuffer at hr
      split at hr
      · rename_i buffer hg
        cases hr
        exact (getFrom_eq_some.1 hg).2
      · cases hr
    obtain ⟨e, hv, rfl, i, rfl, hp⟩ := parseEad_sound h
    exact ⟨some e, hr, fun x hx => by cases hx; exact hv, .some hp⟩
  · cases h
    refine ⟨none, ?_, nofun, .none⟩
    simp only [finished, beq_iff_eq] at h₂
    show d.buf.drop d.pos = []
    simp [h₂]

/-! ## ID_CRED -/

/-- ID_CRED as RFC 8949 reads it: a compact key id is one integer byte that `int_raw` accepts, a full credential
a byte string. -/
def IdCredItem (s : List UInt8) : IdCred → List UInt8 → Prop
  | .compactKid kid, r => IsIntRaw kid ∧ s = kid :: r
  | .fullCredential cred, r => item s = some (.bstr cred, r)

theorem intRaw_sound {d d' : CBORDecoder} {v : UInt8} (h : intRaw d = .ok v d') :
    IsIntRaw v ∧ d.rest = v :: d'.rest := by
  obtain ⟨hv, hp, rfl⟩ := (intRaw_ok_iff d v d').1 h
  exact ⟨hv, rest_eq_append hp⟩

theorem parseIdCred_sound {d d' : CBORDecoder} {i : IdCred} (h : parseIdCred d = .ok (i, d')) :
    IdCredItem d.rest i d'.rest := by
  unfold parseIdCred at h
  obtain ⟨curr, -, h⟩ := bind_eq_ok.1 h
  split_ifs at h
  · obtain ⟨⟨c, d₁⟩, h₁, h⟩ := bind_eq_ok.1 h
    cases h
    exact item_of_bytes (tryRead_eq_ok.1 h₁)
  · obtain ⟨⟨c, d₁⟩, h₁, h⟩ := bind_eq_ok.1 h
    cases h
    exact intRaw_sound (tryRead_eq_ok.1 h₁)

/-! ## The messages -/

/-- What `decode_plaintext_2` reads after C_R, and all of `decode_plaintext_3`: ID_CRED, then the MAC as a byte
string, then the encoding of an optional valid EAD item. -/
theorem decodePlaintextTail_sound {macLen : Nat} {d : CBORDecoder} {idCred : IdCred}
    {mac : Mathlib.Vector UInt8 macLen} {ead : Option EADItem}
    (h : decodePlaintextTail macLen d.buf.length d = .ok (idCred, mac, ead)) :
    ∃ r e, IdCredItem d.rest idCred r ∧ item r = some (.bstr mac.toList, encodeEad e) ∧ (∀ x ∈ e, x.Valid) ∧
      Option.Rel Ead.Parsed e ead := by
  obtain ⟨⟨i, d₁⟩, h₁, h⟩ := bind_eq_ok.1 h
  obtain ⟨⟨c, d₂⟩, h₂, h⟩ := bind_eq_ok.1 h
  obtain ⟨w, h₃, h⟩ := bind_eq_ok.1 h
  obtain ⟨ead', h₄, h⟩ := bind_eq_ok.1 h
  cases h
  rw [← parseIdCred_buf h₁, ← (keepsBuf_bytesSized _).tryRead h₂] at h₄
  obtain ⟨e, he, hv, hp⟩ := parseEadTail_sound h₄
  refine ⟨d₁.rest, e, parseIdCred_sound h₁, ?_, hv, hp⟩
  rw [← he, toList_of_copyFromSlice (lift_eq_ok.1 h₃)]
  exact item_of_bytes ((bytesSized_ok_iff _ _ _ _).1 (tryRead_eq_ok.1 h₂)).2

/-- What `parse_message_1` accepts is the method as an unsigned integer, SUITES_I, G_X as a byte string and C_I as
one integer byte, then the encoding of an optional valid EAD item; it returns the values these carry. -/
theorem parseMessage1_sound {m : EdhocMessageBuffer} {method : UInt8} {suitesI : BytesSuites} {n : Nat}
    {gX : BytesP256ElemLen} {cI : UInt8} {ead : Option EADItem}
    (h : parseMessage1 m = .ok (method, suitesI, n, gX, cI, ead)) :
    ∃ s r₁ r₂ r₃ e, m.asSlice = some s ∧ n ≤ suitesLen ∧
      item s = some (.uint method.toNat, r₁) ∧ SuitesItems r₁ (suitesI.toList.take n) r₂ ∧
      item r₂ = some (.bstr gX.toList, cI :: r₃) ∧ IsIntRaw cI ∧
      r₃ = encodeEad e ∧ (∀ x ∈ e, x.Valid) ∧ Option.Rel Ead.Parsed e ead := by
  unfold parseMessage1 at h
  obtain ⟨s, hs, h⟩ := bind_eq_ok.1 h
  obtain ⟨⟨mt, d₁⟩, h₁, h⟩ := bind_eq_ok.1 h
  dsimp only at h
  rcases h₂ : parseSuitesI d₁ with ⟨v, k, d₂⟩ | _ | _ <;> rw [h₂] at h <;> try cases h
  obtain ⟨⟨g, d₃⟩, h₃, h⟩ := bind_eq_ok.1 h
  obtain ⟨w, h₄, h⟩ := bind_eq_ok.1 h
  obtain ⟨⟨c, d₄⟩, h₅, h⟩ := bind_eq_ok.1 h
  obtain ⟨ead', h₆, h⟩ := bind_eq_ok.1 h
  cases h
  have hs := lift_eq_ok.1 hs
  have hbuf : m.len = d₄.buf.length := by
    rw [keepsBuf_intRaw.tryRead h₅, (keepsBuf_bytesSized _).tryRead h₃, (parseSuitesI_ok h₂).1,
      keepsBuf_u8.tryRead h₁, ← EdhocMessageBuffer.length_of_asSlice hs]
    rfl
  rw [hbuf] at h₆
  obtain ⟨e, he, hv, hp⟩ := parseEadTail_sound h₆
  obtain ⟨hk, hsu⟩ := parseSuitesI_sound h₂
  obtain ⟨hc, hr⟩ := intRaw_sound (tryRead_eq_ok.1 h₅)
  refine ⟨s, d₁.rest, d₂.rest, d₄.rest, e, hs, hk, item_of_u8 (tryRead_eq_ok.1 h₁), hsu, ?_, hc, he, hv, hp⟩
  rw [← hr, toList_of_copyFromSlice (lift_eq_ok.1 h₄)]
  exact item_of_bytes ((bytesSized_ok_iff _ _ _ _).1 (tryRead_eq_ok.1 h₃)).2

/-- What `decode_plaintext_2` accepts is C_R as one integer byte, ID_CRED_R, MAC_2 as a byte string, then the
encoding of an optional valid EAD item; it returns the values these carry. -/
theorem decodePlaintext2_sound {m : EdhocMessageBuffer} {cR : UInt8} {idCred : IdCred} {mac : BytesMac2}
    {ead : Option EADItem} (h : decodePlaintext2 m = .ok (cR, idCred, mac, ead)) :
    ∃ s r₁ r₂ e, m.asSlice = some s ∧ IsIntRaw cR ∧ s = cR :: r₁ ∧ IdCredItem r₁ idCred r₂ ∧
      item r₂ = some (.bstr mac.toList, encodeEad e) ∧ (∀ x ∈ e, x.Valid) ∧ Option.Rel Ead.Parsed e ead := by
  unfold decodePlaintext2 at h
  obtain ⟨s, hs, h⟩ := bind_eq_ok.1 h
  obtain ⟨⟨c, d₁⟩, h₁, h⟩ := bind_eq_ok.1 h
  obtain ⟨⟨i, w, ead'⟩, h₂, h⟩ := bind_eq_ok.1 h
  cases h
  have hs := lift_eq_ok.1 hs
  rw [← EdhocMessageBuffer.length_of_asSlice hs, show s = d₁.buf from (keepsBuf_intRaw.tryRead h₁).symm] at h₂
  obtain ⟨r, e, hi, hm, hv, hp⟩ := decodePlaintextTail_sound h₂
  obtain ⟨hc, hr⟩ := intRaw_sound (tryRead_eq_ok.1 h₁)
  exact ⟨s, d₁.rest, r, e, hs, hc, hr, hi, hm, hv, hp⟩

/-- What `decode_plaintext_3` accepts is ID_CRED_I, MAC_3 as a byte string, then the encoding of an optional
valid EAD item; it returns the values these carry. -/
theorem decodePlaintext3_sound {m : EdhocMessageBuffer} {idCred : IdCred} {mac : BytesMac3} {ead : Option EADItem}
    (h : decodePlaintext3 m = .ok (idCred, mac, ead)) :
    ∃ s r e, m.asSlice = some s ∧ IdCredItem s idCred r ∧ item r = some (.bstr mac.toList, encodeEad e) ∧
      (∀ x ∈ e, x.Valid) ∧ Option.Rel Ead.Parsed e ead := by
  unfold decodePlaintext3 at h
  obtain ⟨s, hs, h⟩ := bind_eq_ok.1 h
  have hs := lift_eq_ok.1 hs
  rw [← EdhocMessageBuffer.length_of_asSlice hs] at h
  obtain ⟨r, e, h⟩ := decodePlaintextTail_sound h
  exact ⟨s, r, e, hs, h⟩

end EdhocParser

end Lakers
