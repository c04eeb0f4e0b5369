import Lakers.Cbor.Position
import Lakers.Parser

/-!
# The parsers keep the decoder within the message

The parsers make only calls on the decoder they start with `CBORDecoder::new(as_slice)`. So every decoder they hold
is one that a sequence of calls reaches (`reachable_of_tryRead`, `parseSuitesI_reachable`,
`parseIdCred_reachable`), within the message. They end with the EAD tail at the message's length; there a
reachable decoder has not passed the end, so the tail's last `Err(ParsingError)` is never returned
(`parseEadTail_reachable`).

* `decoder_position_invariant`: over any sequence of calls on `CBORDecoder::new(buf)`, the position never decreases
  and never passes `buf.len()`, and `remaining_buffer` never fails. `parse_message_1`, `decode_plaintext_2` and
  `decode_plaintext_3` are the same functions with any outcome `o` in place of the tail's last branch
  (`parseEadTailWith`).
-/

namespace Lakers

namespace EdhocParser

open CBORDecoder Outcome

/-! ## Reachable decoders -/

section Reachable

variable {buf : List UInt8} {d d' : CBORDecoder}

/-- A read followed by `?` that returns `Ok` is a call, so it keeps the decoder reachable. -/
theorem reachable_of_tryRead {α : Type} {x : Read α} (op : Op) (hop : ∀ d, step op d = some (after (x d)))
    (h : Reachable buf d) {a : α} (hx : tryRead x d = .ok (a, d')) : Reachable buf d' := by
  have hs : step op d = some d' := by rw [hop, tryRead_eq_ok.1 hx]; rfl
  exact (h.step hs).1

theorem parseSuitesLoop_reachable : ∀ (k i : Nat) (v : BytesSuites) {d : CBORDecoder} {v' : BytesSuites},
    Reachable buf d → parseSuitesLoop k i v d = .ok (v', d') → Reachable buf d'
  | 0, _, _, _, _, h, hl => by cases hl; exact h
  | k + 1, i, v, d, v', h, hl => by
    obtain ⟨⟨s, d₁⟩, h₁, hl⟩ := bind_eq_ok.1 hl
    obtain ⟨w, -, hl⟩ := bind_eq_ok.1 hl
    exact parseSuitesLoop_reachable k (i + 1) w (reachable_of_tryRead .u8 (fun _ => rfl) h h₁) hl

theorem parseSuitesI_reachable (h : Reachable buf d) {v : BytesSuites} {n : Nat}
    (hp : parseSuitesI d = .ok (v, n, d')) : Reachable buf d' := by
  unfold parseSuitesI at hp
  split at hp
  · split_ifs at hp
    · obtain ⟨⟨s, d₁⟩, h₁, hp⟩ := bind_eq_ok.1 hp
      obtain ⟨w, -, hp⟩ := bind_eq_ok.1 hp
      cases hp
      exact reachable_of_tryRead .u8 (fun _ => rfl) h h₁
    · obtain ⟨⟨k, d₁⟩, h₁, hp⟩ := bind_eq_ok.1 hp
      dsimp only at hp
      split_ifs at hp
      obtain ⟨⟨w, d₂⟩, h₂, hp⟩ := bind_eq_ok.1 hp
      cases hp
      exact parseSuitesLoop_reachable _ 0 _ (reachable_of_tryRead .array (fun _ => rfl) h h₁) h₂
  · cases hp

theorem parseIdCred_reachable (h : Reachable buf d) {i : IdCred} (hp : parseIdCred d = .ok (i, d')) :
    Reachable buf d' := by
  unfold parseIdCred at hp
  obtain ⟨curr, -, hp⟩ := bind_eq_ok.1 hp
  split_ifs at hp
  · obtain ⟨⟨c, d₁⟩, h₁, hp⟩ := bind_eq_ok.1 hp
    cases hp
    exact reachable_of_tryRead .bytes (fun _ => rfl) h h₁
  · obtain ⟨⟨c, d₁⟩, h₁, hp⟩ := bind_eq_ok.1 hp
    cases hp
    exact reachable_of_tryRead .intRaw (fun _ => rfl) h h₁

end Reachable

/-! ## The EAD tail -/

/-- `parseEadTail` with `o` in place of its last branch, the `Err(ParsingError)` reached when the decoder is
neither before `len` nor finished. -/
def parseEadTailWith (o : Outcome EDHOCError (Option EADItem)) (len : Nat) (decoder : CBORDecoder) :
    Outcome EDHOCError (Option EADItem) :=
  if len > decoder.position then do
    parseEad (← tryExcept decoder.remainingBuffer)
  else if decoder.finished then pure none
  else o

/-- At the length of its slice, a reachable decoder never takes the tail's last branch. -/
theorem parseEadTail_reachable {buf : List UInt8} {d : CBORDecoder} (h : Reachable buf d)
    (o : Outcome EDHOCError (Option EADItem)) : parseEadTail buf.length d = parseEadTailWith o buf.length d := by
  obtain ⟨hb, hpos, -⟩ := reachable_inv h
  unfold parseEadTail parseEadTailWith
  split_ifs with h₁ h₂
  · rfl
  · rfl
  · simp only [position, finished, beq_iff_eq, hb] at h₁ h₂
    omega

/-- What follows C_R in `decode_plaintext_2`, and all of `decode_plaintext_3`, on a reachable decoder at the length
of its slice: the tail's last branch is never taken. -/
theorem decodePlaintextTail_reachable {buf : List UInt8} {d : CBORDecoder} (h : Reachable buf d)
    (o : Outcome EDHOCError (Option EADItem)) (macLen : Nat) :
    decodePlaintextTail macLen buf.length d = (do
      let (idCred, decoder) ← parseIdCred d
      let (mac, decoder) ← tryRead (bytesSized macLen) decoder
      let mac ← copyFromSlice (Mathlib.Vector.replicate macLen 0) mac
      let ead ← parseEadTailWith o buf.length decoder
      pure (idCred, mac, ead)) := by
  unfold decodePlaintextTail
  refine bind_congr fun ⟨i, d₁⟩ h₁ => bind_congr fun ⟨mac, d₂⟩ h₂ => bind_congr fun _ _ => ?_
  have r₂ := reachable_of_tryRead (.bytesSized macLen) (fun _ => rfl) (parseIdCred_reachable h h₁) h₂
  rw [parseEadTail_reachable r₂ o]

/-! ## The position over a run, and the parsers' last branch -/

/-- Over any sequence of calls on `CBORDecoder::new(buf)`, whether each returns `Ok` or `Err`, the position never
decreases and never passes `buf.len()`, and `remaining_buffer` never fails. So the last `Err(ParsingError)` of
`parse_message_1`, `decode_plaintext_2` and `decode_plaintext_3` is unreachable: with any outcome `o` in its place,
they are the same functions. -/
theorem decoder_position_invariant :
    (∀ buf d, Reachable buf d → d.buf = buf ∧ d.pos ≤ buf.length ∧ d.remainingBuffer = .ok d.rest) ∧
    (∀ buf d op d', Reachable buf d → step op d = some d' →
      d.position ≤ d'.position ∧ d'.position ≤ buf.length) ∧
    (∀ o m, parseMessage1 m = do
      let decoder := CBORDecoder.new (← m.asSlice)
      let (method, decoder) ← tryRead u8 decoder
      match parseSuitesI decoder with
      | .ok (suitesI, suitesILen, decoder) => do
        let (gX, decoder) ← tryRead (bytesSized p256ElemLen) decoder
        let gX ← copyFromSlice (Mathlib.Vector.replicate p256ElemLen 0) gX
        let (cI, decoder) ← tryRead intRaw decoder
        let ead1 ← parseEadTailWith o m.len decoder
        pure (method, suitesI, suitesILen, gX, cI, ead1)
      | .err _ => throw .parsingError
      | .panic => .panic) ∧
    (∀ o m, decodePlaintext2 m = do
      let decoder := CBORDecoder.new (← m.asSlice)
      let (cR, decoder) ← tryRead intRaw decoder
      let (idCredR, decoder) ← parseIdCred decoder
      let (mac2, decoder) ← tryRead (bytesSized macLength2) decoder
      let mac2 ← copyFromSlice (Mathlib.Vector.replicate macLength2 0) mac2
      let ead2 ← parseEadTailWith o m.len decoder
      pure (cR, idCredR, mac2, ead2)) ∧
    (∀ o m, decodePlaintext3 m = do
      let decoder := CBORDecoder.new (← m.asSlice)
      let (idCredI, decoder) ← parseIdCred decoder
      let (mac3, decoder) ← tryRead (bytesSized macLength3) decoder
      let mac3 ← copyFromSlice (Mathlib.Vector.replicate macLength3 0) mac3
      let ead3 ← parseEadTailWith o m.len decoder
      pure (idCredI, mac3, ead3)) := by
  refine ⟨fun _ _ => reachable_inv, fun _ _ _ _ h hs => ?_, fun o m => ?_, fun o m => ?_, fun o m => ?_⟩
  · obtain ⟨h', hle⟩ := h.step hs
    exact ⟨hle, (reachable_inv h').2.1⟩
  · unfold parseMessage1
    refine bind_congr fun s hs => ?_
    rw [← EdhocMessageBuffer.length_of_asSlice (lift_eq_ok.1 hs)]
    refine bind_congr fun ⟨method, d₁⟩ h₁ => ?_
    have r₁ := reachable_of_tryRead .u8 (fun _ => rfl) (reachable_new s) h₁
    dsimp only
    rcases hp : parseSuitesI d₁ with ⟨v, n, d₂⟩ | e | _
    · have r₂ := parseSuitesI_reachable r₁ hp
      dsimp only
      refine bind_congr fun ⟨gX, d₃⟩ h₃ => bind_congr fun _ _ => bind_congr fun ⟨cI, d₄⟩ h₄ => ?_
      have r₃ := reachable_of_tryRead (.bytesSized p256ElemLen) (fun _ => rfl) r₂ h₃
      rw [parseEadTail_reachable (reachable_of_tryRead .intRaw (fun _ => rfl) r₃ h₄) o]
    · rfl
    · rfl
  · unfold decodePlaintext2
    refine bind_congr fun s hs => ?_
    rw [← EdhocMessageBuffer.length_of_asSlice (lift_eq_ok.1 hs)]
    refine bind_congr fun ⟨cR, d₁⟩ h₁ => ?_
    dsimp only
    rw [decodePlaintextTail_reachable (reachable_of_tryRead .intRaw (fun _ => rfl) (reachable_new s) h₁) o]
    simp only [bind_assoc, pure_eq, ok_bind]
  · unfold decodePlaintext3
    refine bind_congr fun s hs => ?_
    rw [← EdhocMessageBuffer.length_of_asSlice (lift_eq_ok.1 hs), decodePlaintextTail_reachable (reachable_new s) o]

end EdhocParser

end Lakers
