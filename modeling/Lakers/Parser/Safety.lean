import Lakers.Parser

/-!
# The parsers never panic

On every message buffer whose length is within its capacity, `parse_message_1`, `parse_message_2`,
`decode_plaintext_2` and `decode_plaintext_3` return `Ok` or `Err` (`parsers_noPanic`). The panics of the source
are the length check of each `copy_from_slice` (a sized byte string has the length asked for), the bounds check of
`suites_i[i]` (the loop of `parse_suites_i` runs only when the array fits, `parseSuitesLoop_noPanic`), the `u8`
subtraction of `parse_ead` (only on negative-integer labels, `eadLabel_noPanic`), and the `unwrap` of
`fill_with_slice` in `parse_ead`, which cannot fail on a tail taken from the message (`parseEadTail_noPanic`).

The last needs the decoder's slice to be the message: every read keeps the slice (`KeepsBuf`), and so do
`parse_suites_i` and the ID_CRED part.
-/

namespace Lakers

namespace EdhocParser

open CBORDecoder Outcome

/-! ## Reads keep the slice -/

/-- A read that leaves the decoder's slice as it is. -/
def KeepsBuf {α : Type} (x : Read α) : Prop := ∀ d a d', x d = .ok a d' → d'.buf = d.buf

theorem keepsBuf_u8 : KeepsBuf u8 := fun d _ _ h => by
  obtain ⟨_, -, rfl⟩ := (u8_ok_iff _ _ _).1 h; rfl

theorem keepsBuf_intRaw : KeepsBuf intRaw := fun d _ _ h => by
  obtain ⟨-, -, rfl⟩ := (intRaw_ok_iff _ _ _).1 h; rfl

theorem keepsBuf_bytes : KeepsBuf bytes := fun d _ _ h => by
  obtain ⟨_, -, rfl⟩ := (bytes_ok_iff _ _ _).1 h; rfl

theorem keepsBuf_bytesSized (k : Nat) : KeepsBuf (bytesSized k) := fun d a d' h =>
  keepsBuf_bytes d a d' ((bytesSized_ok_iff _ _ _ _).1 h).2

theorem keepsBuf_array : KeepsBuf array := fun d _ _ h => by
  obtain ⟨_, -, rfl⟩ := (array_ok_iff _ _ _).1 h; rfl

theorem KeepsBuf.tryRead {α : Type} {x : Read α} (hx : KeepsBuf x) {d d' : CBORDecoder} {a : α}
    (h : tryRead x d = .ok (a, d')) : d'.buf = d.buf :=
  hx d a d' (tryRead_eq_ok.1 h)

/-! ## `parse_suites_i` -/

/-- The loop of `parse_suites_i` writes only inside `suites_i` while its indices stay below `SUITES_LEN`. -/
theorem parseSuitesLoop_noPanic : ∀ (k i : Nat) (v : BytesSuites) (d : CBORDecoder), i + k ≤ suitesLen →
    NoPanic (parseSuitesLoop k i v d)
  | 0, _, _, _, _ => noPanic_ok _
  | k + 1, i, v, d, h => NoPanic.tryRead_bind fun s d' _ => by
    dsimp only
    simp only [indexSet_of_lt v s (show i < suitesLen by omega), lift_some, ok_bind]
    exact parseSuitesLoop_noPanic k (i + 1) _ d' (by omega)

theorem parseSuitesLoop_buf : ∀ (k i : Nat) (v : BytesSuites) (d : CBORDecoder) {v' : BytesSuites}
    {d' : CBORDecoder}, parseSuitesLoop k i v d = .ok (v', d') → d'.buf = d.buf
  | 0, _, _, _, _, _, h => by cases h; rfl
  | k + 1, i, v, d, v', d', h => by
    obtain ⟨⟨s, d₁⟩, h₁, h⟩ := bind_eq_ok.1 h
    obtain ⟨w, h₂, h⟩ := bind_eq_ok.1 h
    rw [parseSuitesLoop_buf k (i + 1) w d₁ h, keepsBuf_u8.tryRead h₁]

theorem parseSuitesI_noPanic (d : CBORDecoder) : NoPanic (parseSuitesI d) := by
  unfold parseSuitesI
  split
  · split_ifs
    · refine NoPanic.tryRead_bind fun s d' _ => ?_
      dsimp only
      simp only [indexSet_of_lt _ s (show 0 < suitesLen by simp), lift_some, ok_bind]
      exact noPanic_ok _
    · refine NoPanic.tryRead_bind fun n d' _ => ?_
      dsimp only
      split_ifs with hn
      · exact NoPanic.bind (parseSuitesLoop_noPanic n 0 _ d' (by omega)) fun _ _ => noPanic_ok _
      · exact noPanic_err _
    · exact noPanic_err _
  · exact noPanic_err _

/-- `parse_suites_i` leaves the decoder on the same slice, and its length fits `suites_i`. -/
theorem parseSuitesI_ok {d d' : CBORDecoder} {v : BytesSuites} {n : Nat} (h : parseSuitesI d = .ok (v, n, d')) :
    d'.buf = d.buf ∧ n ≤ suitesLen := by
  unfold parseSuitesI at h
  split at h
  · split_ifs at h
    · obtain ⟨⟨s, d₁⟩, h₁, h⟩ := bind_eq_ok.1 h
      obtain ⟨w, -, h⟩ := bind_eq_ok.1 h
      cases h
      exact ⟨keepsBuf_u8.tryRead h₁, by simp⟩
    · obtain ⟨⟨k, d₁⟩, h₁, h⟩ := bind_eq_ok.1 h
      dsimp only at h
      split_ifs at h with hk
      obtain ⟨⟨w, d₂⟩, h₂, h⟩ := bind_eq_ok.1 h
      cases h
      exact ⟨(parseSuitesLoop_buf _ _ _ _ h₂).trans (keepsBuf_array.tryRead h₁), hk⟩
  · cases h

/-! ## ID_CRED, MAC and EAD -/

theorem parseIdCred_noPanic (d : CBORDecoder) : NoPanic (parseIdCred d) := by
  unfold parseIdCred
  cases d.current with
  | error e => exact noPanic_err _
  | ok curr =>
    simp only [tryExcept_ok, ok_bind]
    split_ifs
    · exact NoPanic.tryRead_bind fun _ _ _ => noPanic_ok _
    · exact NoPanic.tryRead_bind fun _ _ _ => noPanic_ok _

theorem parseIdCred_buf {d d' : CBORDecoder} {i : IdCred} (h : parseIdCred d = .ok (i, d')) : d'.buf = d.buf := by
  unfold parseIdCred at h
  obtain ⟨curr, -, h⟩ := bind_eq_ok.1 h
  split_ifs at h
  · obtain ⟨⟨c, d₁⟩, h₁, h⟩ := bind_eq_ok.1 h
    cases h
    exact keepsBuf_bytes.tryRead h₁
  · obtain ⟨⟨c, d₁⟩, h₁, h⟩ := bind_eq_ok.1 h
    cases h
    exact keepsBuf_intRaw.tryRead h₁

theorem decodePlaintextTail_noPanic (macLen len : Nat) {d : CBORDecoder} (h : d.buf.length ≤ maxMessageSizeLen) :
    NoPanic (decodePlaintextTail macLen len d) := by
  unfold decodePlaintextTail
  refine NoPanic.bind (parseIdCred_noPanic d) fun ⟨i, d₁⟩ h₁ => NoPanic.tryRead_bind fun mac d₂ h₂ => ?_
  simp only [copyFromSlice_of_length _ ((bytesSized_ok_iff _ _ _ _).1 h₂).1, lift_some, ok_bind]
  refine NoPanic.bind (parseEadTail_noPanic len ?_) fun _ _ => noPanic_ok _
  rwa [keepsBuf_bytesSized macLen d₁ mac d₂ h₂, parseIdCred_buf h₁]

/-! ## The four parsers -/

theorem length_asSlice_le (m : EdhocMessageBuffer) : (m.content.toList.take m.len).length ≤ maxMessageSizeLen := by
  simp

theorem parseMessage1_noPanic {m : EdhocMessageBuffer} (hm : m.len ≤ maxMessageSizeLen) :
    NoPanic (parseMessage1 m) := by
  unfold parseMessage1
  simp only [EdhocMessageBuffer.asSlice_of_valid hm, lift_some, ok_bind]
  refine NoPanic.tryRead_bind fun method d₁ h₁ => ?_
  rcases hs : parseSuitesI d₁ with ⟨v, n, d₂⟩ | e | _
  · refine NoPanic.tryRead_bind fun gx d₃ h₃ => ?_
    simp only [copyFromSlice_of_length _ ((bytesSized_ok_iff _ _ _ _).1 h₃).1, lift_some, ok_bind]
    refine NoPanic.tryRead_bind fun cI d₄ h₄ => NoPanic.bind (parseEadTail_noPanic _ ?_) fun _ _ => noPanic_ok _
    rw [keepsBuf_intRaw _ _ _ h₄, keepsBuf_bytesSized _ _ _ _ h₃, (parseSuitesI_ok hs).1, keepsBuf_u8 _ _ _ h₁]
    exact length_asSlice_le m
  · exact noPanic_err _
  · exact absurd hs (parseSuitesI_noPanic _)

theorem decodePlaintext2_noPanic {m : EdhocMessageBuffer} (hm : m.len ≤ maxMessageSizeLen) :
    NoPanic (decodePlaintext2 m) := by
  unfold decodePlaintext2
  simp only [EdhocMessageBuffer.asSlice_of_valid hm, lift_some, ok_bind]
  refine NoPanic.tryRead_bind fun cR d₁ h₁ => NoPanic.bind (decodePlaintextTail_noPanic _ _ ?_) fun _ _ => noPanic_ok _
  rw [keepsBuf_intRaw _ _ _ h₁]
  exact length_asSlice_le m

theorem decodePlaintext3_noPanic {m : EdhocMessageBuffer} (hm : m.len ≤ maxMessageSizeLen) :
    NoPanic (decodePlaintext3 m) := by
  unfold decodePlaintext3
  simp only [EdhocMessageBuffer.asSlice_of_valid hm, lift_some, ok_bind]
  exact decodePlaintextTail_noPanic _ _ (length_asSlice_le m)

end EdhocParser

end Lakers
