import Lakers.MessageBuffer
import Lakers.Cbor.Reads

/-!
# The EDHOC message parsers

The module `edhoc_parser` of `lakers-shared`: `parse_ead`, `parse_suites_i`, `parse_message_1`, `parse_message_2`,
`decode_plaintext_2` and `decode_plaintext_3`. Each is a function into `Outcome EDHOCError`: it returns `Ok`,
returns `Err`, or panics. A read of the decoder followed by `?` is `tryRead`, which also returns the decoder after
the read, since the parsers move one decoder through the message. The source's two plaintext decoders share
their ID_CRED, MAC and EAD parts (`decodePlaintextTail`), and the three message parsers share their EAD tail
(`parseEadTail`).

The results of this module say what each part does on any decoder:

* `parseEad_cons`: on a label byte it accepts, `parse_ead` returns the item with that label and criticality, and
  a value buffer holding exactly the bytes after the label byte.
* `parseEadTail_cursor`: once the decoder is past the fixed fields, the tail is an EAD item exactly when bytes
  remain, and nothing is left unread; the final `Err` of the source is unreachable.
* `eadLabel_noPanic`, `parseEad_noPanic` and `parseEadTail_noPanic`: the subtraction that makes a critical label
  positive never underflows, and the EAD parts never panic on a buffer within its capacity.
-/

namespace Lakers

/-- `EADItem`: an external authorization data item. -/
structure EADItem where
  label : UInt8
  isCritical : Bool
  value : Option EdhocMessageBuffer
  deriving DecidableEq

/-- `IdCred`: a credential identifier, given by a compact key id or by the credential's bytes. -/
inductive IdCred
  | compactKid (kid : UInt8)
  | fullCredential (cred : List UInt8)
  deriving DecidableEq, Repr

namespace EdhocParser

open CBORDecoder

/-! ## Reads followed by `?` -/

/-- `x?` on a read of the decoder: the value and the decoder after the read, or the error, converted by `From`. -/
def tryRead {α : Type} (x : Read α) (decoder : CBORDecoder) : Outcome EDHOCError (α × CBORDecoder) :=
  match x decoder with
  | .ok a decoder => .ok (a, decoder)
  | .error e _ => .err e.into

/-- `x?` on a `Result<α, CBORError>`. -/
def tryExcept {α : Type} : Except CBORError α → Outcome EDHOCError α
  | .ok a => .ok a
  | .error e => .err e.into

/-! ## The parsers -/

/-- `label_res` of `parse_ead`: an unsigned integer byte is a non-critical label, a negative integer byte
`0x20 + k` the critical label `k + 1`. -/
def eadLabel (label : UInt8) : Outcome EDHOCError (UInt8 × Bool) :=
  if isU8 label then pure (label, false)
  else if isI8 label then do
    let l ← subU8 label (cborNegInt1ByteStart - 1)
    pure (l, true)
  else throw .parsingError

/-- `parse_ead`: one EAD item, a label byte and the value bytes after it. The value buffer is filled by
`fill_with_slice(tail).unwrap()`, which panics when the tail does not fit. -/
def parseEad : List UInt8 → Outcome EDHOCError (Option EADItem)
  | [] => throw .parsingError
  | label :: tail =>
    match eadLabel label with
    | .ok (label, isCritical) => do
      let eadValue ← if tail.length > 0 then do
          let buffer ← unwrapMut (EdhocMessageBuffer.fillWithSlice tail EdhocMessageBuffer.new)
          pure (some { buffer with len := tail.length })
        else pure none
      pure (some ⟨label, isCritical, eadValue⟩)
    | .err _ => throw .parsingError
    | .panic => .panic

/-- The loop of `parse_suites_i`: `k` more suites, each read by `u8` and written at index `i`, `i + 1`, …. -/
def parseSuitesLoop : Nat → Nat → BytesSuites → CBORDecoder → Outcome EDHOCError (BytesSuites × CBORDecoder)
  | 0, _, suitesI, decoder => pure (suitesI, decoder)
  | k + 1, i, suitesI, decoder => do
    let (s, decoder) ← tryRead u8 decoder
    let suitesI ← indexSet suitesI i s
    parseSuitesLoop k (i + 1) suitesI decoder

/-- `parse_suites_i`: one suite as an unsigned integer, or an array of suites whose head's additional information
is at least 2 and whose length fits `suites_i`. -/
def parseSuitesI (decoder : CBORDecoder) : Outcome EDHOCError (BytesSuites × Nat × CBORDecoder) :=
  let suitesI : BytesSuites := Mathlib.Vector.replicate _ 0
  match decoder.current with
  | .ok curr =>
    if cborUint1ByteStart = typeOf curr then do
      let (s, decoder) ← tryRead u8 decoder
      let suitesI ← indexSet suitesI 0 s
      pure (suitesI, 1, decoder)
    else if cborMajorArray = typeOf curr ∧ infoOf curr ≥ 2 then do
      let (suitesILen, decoder) ← tryRead array decoder
      if suitesILen ≤ suitesLen then do
        let (suitesI, decoder) ← parseSuitesLoop suitesILen 0 suitesI decoder
        pure (suitesI, suitesILen, decoder)
      else throw .parsingError
    else throw .parsingError
  | .error _ => throw .parsingError

/-- The end of `parse_message_1`, `decode_plaintext_2` and `decode_plaintext_3`: an EAD item when bytes remain
before the message's length `len`, none when the decoder has finished, and an error otherwise. -/
def parseEadTail (len : Nat) (decoder : CBORDecoder) : Outcome EDHOCError (Option EADItem) :=
  if len > decoder.position then do
    parseEad (← tryExcept decoder.remainingBuffer)
  else if decoder.finished then pure none
  else throw .parsingError

/-- `parse_message_1`: method, SUITES_I, G_X, C_I and an optional EAD item. -/
def parseMessage1 (rcvdMessage1 : EdhocMessageBuffer) :
    Outcome EDHOCError (UInt8 × BytesSuites × Nat × BytesP256ElemLen × UInt8 × Option EADItem) := do
  let decoder := CBORDecoder.new (← rcvdMessage1.asSlice)
  let (method, decoder) ← tryRead u8 decoder
  match parseSuitesI decoder with
  | .ok (suitesI, suitesILen, decoder) => do
    let (gX, decoder) ← tryRead (bytesSized p256ElemLen) decoder
    let gX ← copyFromSlice (Mathlib.Vector.replicate p256ElemLen 0) gX
    let (cI, decoder) ← tryRead intRaw decoder
    let ead1 ← parseEadTail rcvdMessage1.len decoder
    pure (method, suitesI, suitesILen, gX, cI, ead1)
  | .err _ => throw .parsingError
  | .panic => .panic

/-- `parse_message_2`: one byte string, split into G_Y (its first `P256_ELEM_LEN` bytes) and CIPHERTEXT_2. -/
def parseMessage2 (rcvdMessage2 : EdhocMessageBuffer) :
    Outcome EDHOCError (BytesP256ElemLen × EdhocMessageBuffer) := do
  let ciphertext2 := EdhocMessageBuffer.new
  let decoder := CBORDecoder.new (← rcvdMessage2.asSlice)
  let (decoded, decoder) ← tryRead bytes decoder
  if decoder.finished then
    match getRange decoded 0 p256ElemLen with
    | some key => do
      let gY ← copyFromSlice (Mathlib.Vector.replicate p256ElemLen 0) key
      match getFrom decoded p256ElemLen with
      | some c2 =>
        match EdhocMessageBuffer.fillWithSlice c2 ciphertext2 with
        | .ok () ciphertext2 => pure (gY, ciphertext2)
        | .error _ _ => throw .parsingError
      | none => throw .parsingError
    | none => throw .parsingError
  else throw .parsingError

/-- ID_CRED in `decode_plaintext_2` and `decode_plaintext_3`: a byte string whose head's additional information is
above 1 is a full credential, anything else is read by `int_raw` as a compact key id. The source calls
`current()` twice in the condition; both calls see the same byte. -/
def parseIdCred (decoder : CBORDecoder) : Outcome EDHOCError (IdCred × CBORDecoder) := do
  let curr ← tryExcept decoder.current
  if cborMajorByteString = typeOf curr ∧ infoOf curr > 1 then do
    let (cred, decoder) ← tryRead bytes decoder
    pure (.fullCredential cred, decoder)
  else do
    let (kid, decoder) ← tryRead intRaw decoder
    pure (.compactKid kid, decoder)

/-- What `decode_plaintext_2` reads after C_R, and all of `decode_plaintext_3`: ID_CRED, the MAC of `macLen`
bytes, and the EAD tail. -/
def decodePlaintextTail (macLen len : Nat) (decoder : CBORDecoder) :
    Outcome EDHOCError (IdCred × Mathlib.Vector UInt8 macLen × Option EADItem) := do
  let (idCred, decoder) ← parseIdCred decoder
  let (mac, decoder) ← tryRead (bytesSized macLen) decoder
  let mac ← copyFromSlice (Mathlib.Vector.replicate macLen 0) mac
  let ead ← parseEadTail len decoder
  pure (idCred, mac, ead)

/-- `decode_plaintext_2`: C_R, ID_CRED_R, MAC_2 and an optional EAD item. -/
def decodePlaintext2 (plaintext2 : EdhocMessageBuffer) :
    Outcome EDHOCError (UInt8 × IdCred × BytesMac2 × Option EADItem) := do
  let decoder := CBORDecoder.new (← plaintext2.asSlice)
  let (cR, decoder) ← tryRead intRaw decoder
  let (idCredR, mac2, ead2) ← decodePlaintextTail macLength2 plaintext2.len decoder
  pure (cR, idCredR, mac2, ead2)

/-- `decode_plaintext_3`: ID_CRED_I, MAC_3 and an optional EAD item. -/
def decodePlaintext3 (plaintext3 : EdhocMessageBuffer) :
    Outcome EDHOCError (IdCred × BytesMac3 × Option EADItem) := do
  decodePlaintextTail macLength3 plaintext3.len (CBORDecoder.new (← plaintext3.asSlice))

/-! ## Reads followed by `?`, as steps -/

section TryRead

variable {α β : Type} {x : Read α} {d d' : CBORDecoder} {a : α}

theorem tryRead_of_ok (h : x d = .ok a d') : tryRead x d = .ok (a, d') := by
  simp only [tryRead, h]

theorem tryRead_eq_ok : tryRead x d = .ok (a, d') ↔ x d = .ok a d' := by
  unfold tryRead
  split <;> simp_all

/-- Reads never panic, so neither does a read followed by what does not panic after it. -/
theorem NoPanic.tryRead_bind {f : α × CBORDecoder → Outcome EDHOCError β}
    (hf : ∀ a d', x d = .ok a d' → Outcome.NoPanic (f (a, d'))) : Outcome.NoPanic (tryRead x d >>= f) := by
  unfold tryRead
  split
  · exact hf _ _ ‹_›
  · exact Outcome.noPanic_err _

theorem tryExcept_ok (a : α) : tryExcept (.ok a : Except CBORError α) = .ok a := rfl

/-- `?` on a read converts its only error to `ParsingError`. -/
theorem errOnly_tryRead (x : Read α) (d : CBORDecoder) : Outcome.ErrOnly .parsingError (tryRead x d) := by
  unfold tryRead
  split
  · exact Outcome.errOnly_ok _ _
  · rename_i e _ _
    cases e
    exact Outcome.errOnly_err _

theorem errOnly_tryExcept (x : Except CBORError α) : Outcome.ErrOnly .parsingError (tryExcept x) := by
  rcases x with ⟨⟨⟩⟩ | a
  · exact Outcome.errOnly_err _
  · exact Outcome.errOnly_ok _ _

end TryRead

/-! ## `parse_ead` -/

theorem eadLabel_noPanic (label : UInt8) : Outcome.NoPanic (eadLabel label) := by
  unfold eadLabel
  split_ifs with h₁ h₂
  · exact Outcome.noPanic_ok _
  · have h : (cborNegInt1ByteStart - 1) ≤ label := by
      rw [isI8_iff] at h₂
      rw [UInt8.le_iff_toNat_le]
      show 31 ≤ label.toNat
      omega
    simp only [subU8, if_pos h, Outcome.lift_some, Outcome.ok_bind, Outcome.pure_eq]
    exact Outcome.noPanic_ok _
  · exact Outcome.noPanic_err _

/-- On a label byte it accepts, `parse_ead` returns the item with that label, and a value buffer holding exactly
the bytes after the label byte when there are any. -/
theorem parseEad_cons {label l : UInt8} {c : Bool} (hl : eadLabel label = .ok (l, c)) {tail : List UInt8}
    (ht : tail.length ≤ maxMessageSizeLen) :
    ∃ v, parseEad (label :: tail) = .ok (some ⟨l, c, v⟩) ∧
      (tail = [] ∧ v = none ∨ tail ≠ [] ∧ ∃ b, v = some b ∧ b.asSlice = some tail) := by
  simp only [parseEad, hl]
  rcases tail with _ | ⟨t, ts⟩
  · exact ⟨none, rfl, .inl ⟨rfl, rfl⟩⟩
  · obtain ⟨-, b, hb, -, hs⟩ | ⟨h, -⟩ := EdhocMessageBuffer.fillWithSlice_spec EdhocMessageBuffer.new (t :: ts)
    · have hlen : { b with len := ts.length + 1 } = b := by
        rw [← List.length_cons t, EdhocMessageBuffer.length_of_asSlice hs]
      refine ⟨some b, ?_, .inr ⟨List.cons_ne_nil _ _, b, rfl, hs⟩⟩
      simp only [List.length_cons, Nat.zero_lt_succ, if_true, hb, unwrapMut, Outcome.lift_some, Outcome.ok_bind,
        hlen, Outcome.pure_eq]
    · exact absurd ht h

theorem parseEad_noPanic {s : List UInt8} (h : s.length ≤ maxMessageSizeLen + 1) : Outcome.NoPanic (parseEad s) := by
  rcases s with _ | ⟨label, tail⟩
  · exact Outcome.noPanic_err _
  · rcases hl : eadLabel label with ⟨l, c⟩ | e | _
    · obtain ⟨v, hv, -⟩ :=
        parseEad_cons hl (show tail.length ≤ maxMessageSizeLen by simp only [List.length_cons] at h; omega)
      rw [hv]
      exact Outcome.noPanic_ok _
    · simp only [parseEad, hl]
      exact Outcome.noPanic_err _
    · exact absurd hl (eadLabel_noPanic label)

/-! ## The EAD tail -/

/-- Past the fixed fields of a message, the EAD tail is an item exactly when bytes remain; the source's last
`Err(ParsingError)` is never reached. -/
theorem parseEadTail_cursor (pre r : List UInt8) :
    parseEadTail (pre ++ r).length (cursor pre r) = if r = [] then pure none else parseEad r := by
  unfold parseEadTail
  rcases r with _ | ⟨b, r⟩
  · simp
  · simp only [position_cursor, List.length_append, List.length_cons, remainingBuffer_cursor, tryExcept_ok,
      Outcome.ok_bind, reduceCtorEq, if_false]
    rw [if_pos (by omega)]

theorem parseEadTail_noPanic (len : Nat) {d : CBORDecoder} (h : d.buf.length ≤ maxMessageSizeLen) :
    Outcome.NoPanic (parseEadTail len d) := by
  unfold parseEadTail remainingBuffer
  split_ifs
  · rcases hg : getFrom d.buf d.pos with _ | r
    · exact Outcome.noPanic_err _
    · obtain ⟨-, rfl⟩ := getFrom_eq_some.1 hg
      exact parseEad_noPanic (by simp only [List.length_drop]; omega)
  · exact Outcome.noPanic_ok _
  · exact Outcome.noPanic_err _

end EdhocParser

end Lakers
