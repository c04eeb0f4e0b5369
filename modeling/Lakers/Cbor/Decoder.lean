import Lakers.Basic

/-!
# The CBOR decoder

`CBORDecoder` of `lakers-shared`: a cursor over an immutable byte slice. Each `&mut self` read is an `EStateM`
action on the decoder; on `Err` the position is wherever the read had moved it. The `&self` methods (`position`,
`finished`, `remaining_buffer`, `current`) are functions of the decoder.

The reads are stated on `rest`, the bytes from the position on: `read_eq` and `readSlice_eq` say what the two
primitive reads do there, and `asUsize_eq` what the length read does. `Lakers.Cbor.Reads` builds the
characterisation of every read on these.
-/

namespace Lakers

/-- `CBORDecoder`: a byte slice and a position in it. -/
structure CBORDecoder where
  buf : List UInt8
  pos : Nat
  deriving DecidableEq, Repr

namespace CBORDecoder

/-- A `&mut self` read of the decoder. -/
abbrev Read (α : Type) := EStateM CBORError CBORDecoder α

/-! ## The decoder -/

/-- `new`. -/
def new (bytes : List UInt8) : CBORDecoder := ⟨bytes, 0⟩

/-- `read`: consume and return the byte at the current position. -/
def read : Read UInt8 := fun d =>
  match d.buf[d.pos]? with
  | some b => .ok b { d with pos := d.pos + 1 }
  | none => .error .decodingError d

/-- `read_slice`: consume and return `n` bytes starting at the current position. The `checked_add` of the source
cannot overflow here: positions are `Nat`. -/
def readSlice (n : Nat) : Read (List UInt8) := fun d =>
  match getRange d.buf d.pos (d.pos + n) with
  | some b => .ok b { d with pos := d.pos + n }
  | none => .error .decodingError d

/-- `position`. -/
def position (d : CBORDecoder) : Nat := d.pos

/-- `finished`. -/
def finished (d : CBORDecoder) : Bool := d.pos == d.buf.length

/-- `ensure_finished`. -/
def ensureFinished (d : CBORDecoder) : Except CBORError Unit :=
  if d.finished then .ok () else .error .decodingError

/-- `remaining_buffer`. -/
def remainingBuffer (d : CBORDecoder) : Except CBORError (List UInt8) :=
  match getFrom d.buf d.pos with
  | some buffer => .ok buffer
  | none => .error .decodingError

/-- `current`: the byte at the current position. -/
def current (d : CBORDecoder) : Except CBORError UInt8 :=
  match d.buf[d.pos]? with
  | some b => .ok b
  | none => .error .decodingError

/-- `type_of`: the major type (highest 3 bits). -/
def typeOf (b : UInt8) : UInt8 := b &&& 0xE0

/-- `info_of`: the additional information (lowest 5 bits). -/
def infoOf (b : UInt8) : UInt8 := b &&& 0x1F

/-- `is_u8`: an unsigned integer encoded as a single byte. -/
def isU8 (byte : UInt8) : Bool := byte ≥ cborUint1ByteStart && byte ≤ cborUint1ByteEnd

/-- `is_i8`: a negative integer encoded as a single byte. -/
def isI8 (byte : UInt8) : Bool := byte ≥ cborNegInt1ByteStart && byte ≤ cborNegInt1ByteEnd

/-- `as_usize`: a length given inline or in one following byte. -/
def asUsize (b : UInt8) : Read Nat :=
  if b ≤ 0x17 then pure b.toNat
  else if 0x18 = b then do return (← read).toNat
  else throw .decodingError

/-- `u8`. -/
def u8 : Read UInt8 := do
  let n ← read
  if n ≤ 0x17 then pure n
  else if 0x18 = n then read
  else throw .decodingError

/-- `i8`. The cast `as i8` keeps the bits (`Int8.mk`). The `u8` subtraction `self.read()? - 0x20` of the `0x38`
branch is checked in a debug build, so the read is an `Option`, `none` where that subtraction underflows; the
other subtractions cannot overflow. -/
def i8 (d : CBORDecoder) : Option (EStateM.Result CBORError CBORDecoder Int8) :=
  match read d with
  | .error e d => some (.error e d)
  | .ok n d =>
    if n ≤ 0x17 then some (.ok ⟨n⟩ d)
    else if 0x20 ≤ n ∧ n ≤ 0x37 then some (.ok (-1 - ⟨n - 0x20⟩) d)
    else if 0x18 = n then
      match read d with
      | .ok m d => some (.ok ⟨m⟩ d)
      | .error e d => some (.error e d)
    else if 0x38 = n then
      match read d with
      | .ok m d => (subU8 m 0x20).map fun x => .ok (-1 - ⟨x⟩) d
      | .error e d => some (.error e d)
    else some (.error .decodingError d)

/-- `int_raw`: the raw `i8` or `u8` value. -/
def intRaw : Read UInt8 := do
  let n ← read
  if n ≤ 0x17 ∨ (0x20 ≤ n ∧ n ≤ 0x37) then pure n
  else throw .decodingError

/-- `str` and `bytes`: a string of the given major type whose length is given inline or in one byte. -/
def majorString (major : UInt8) : Read (List UInt8) := do
  let b ← read
  if major ≠ typeOf b ∨ infoOf b = 31 then throw .decodingError
  else
    let n ← asUsize (infoOf b)
    readSlice n

/-- `str`: a text string, as its bytes. -/
def str : Read (List UInt8) := majorString cborMajorTextString

/-- `bytes`: a byte string. -/
def bytes : Read (List UInt8) := majorString cborMajorByteString

/-- `bytes_sized`: a byte string of the expected size. -/
def bytesSized (expectedSize : Nat) : Read (List UInt8) := do
  let res ← bytes
  if res.length = expectedSize then pure res
  else throw .decodingError

/-- `array`: the head of an array, giving its number of elements. -/
def array : Read Nat := do
  let b ← read
  if cborMajorArray ≠ typeOf b then throw .decodingError
  else if infoOf b = 31 then throw .decodingError
  else asUsize (infoOf b)

/-! ## Reads on the remaining bytes -/

/-- The bytes from the position on. -/
def rest (d : CBORDecoder) : List UInt8 := d.buf.drop d.pos

/-- The decoder `n` bytes further on. -/
def advance (d : CBORDecoder) (n : Nat) : CBORDecoder := ⟨d.buf, d.pos + n⟩

@[simp] theorem advance_buf (d : CBORDecoder) (n : Nat) : (d.advance n).buf = d.buf := rfl
@[simp] theorem advance_pos (d : CBORDecoder) (n : Nat) : (d.advance n).pos = d.pos + n := rfl
@[simp] theorem advance_advance (d : CBORDecoder) (m n : Nat) : (d.advance m).advance n = d.advance (m + n) := by
  simp [advance, Nat.add_assoc]

theorem rest_advance (d : CBORDecoder) (n : Nat) : (d.advance n).rest = d.rest.drop n := by
  simp [rest, advance, List.drop_drop, Nat.add_comm]

theorem getElem?_pos (d : CBORDecoder) : d.buf[d.pos]? = d.rest.head? := by
  simp [rest, List.head?_drop]

theorem read_eq (d : CBORDecoder) :
    read d = match d.rest with
      | b :: _ => .ok b (d.advance 1)
      | [] => .error .decodingError d := by
  simp only [read, getElem?_pos]
  cases d.rest <;> rfl

theorem read_cons {d : CBORDecoder} {b : UInt8} {r : List UInt8} (hr : d.rest = b :: r) :
    read d = .ok b (d.advance 1) := by
  rw [read_eq, hr]

theorem read_nil {d : CBORDecoder} (hr : d.rest = []) : read d = .error .decodingError d := by
  rw [read_eq, hr]

theorem readSlice_eq (n : Nat) (d : CBORDecoder) :
    readSlice n d =
      if d.pos + n ≤ d.buf.length then .ok (d.rest.take n) (d.advance n) else .error .decodingError d := by
  unfold readSlice getRange
  by_cases h : d.pos + n ≤ d.buf.length
  · simp only [if_pos h, Nat.le_add_right, true_and, Nat.add_sub_cancel_left]
    rfl
  · simp only [if_neg h, and_iff_right (Nat.le_add_right _ _)]

theorem bind_ok {α β : Type} {x : Read α} {f : α → Read β} {d d' : CBORDecoder} {a : α} (h : x d = .ok a d') :
    (x >>= f) d = f a d' := by
  show EStateM.bind x f d = _
  simp only [EStateM.bind, h]

theorem bind_error {α β : Type} {x : Read α} {f : α → Read β} {d d' : CBORDecoder} {e : CBORError}
    (h : x d = .error e d') : (x >>= f) d = .error e d' := by
  show EStateM.bind x f d = _
  simp only [EStateM.bind, h]

@[simp] theorem pure_apply {α : Type} (a : α) (d : CBORDecoder) : (pure a : Read α) d = .ok a d := rfl
@[simp] theorem throw_apply {α : Type} (e : CBORError) (d : CBORDecoder) : (throw e : Read α) d = .error e d := rfl

/-! ## Bytes -/

set_option maxRecDepth 4000 in
theorem toNat_typeOf (b : UInt8) : (typeOf b).toNat = b.toNat / 32 * 32 := by
  have h : ∀ x < 256, x &&& 224 = x / 32 * 32 := by decide
  rw [typeOf, UInt8.and_toNat]; exact h _ b.toNat_lt_size

theorem toNat_infoOf (b : UInt8) : (infoOf b).toNat = b.toNat % 32 := by
  rw [infoOf, UInt8.and_toNat]; exact Nat.and_pow_two_sub_one_eq_mod _ 5

theorem isU8_iff (b : UInt8) : isU8 b = true ↔ b.toNat ≤ 23 := by
  simp [isU8, cborUint1ByteStart, cborUint1ByteEnd, UInt8.le_iff_toNat_le, UInt8.size]

theorem isI8_iff (b : UInt8) : isI8 b = true ↔ 32 ≤ b.toNat ∧ b.toNat ≤ 55 := by
  simp [isI8, cborNegInt1ByteStart, cborNegInt1ByteEnd, UInt8.le_iff_toNat_le, UInt8.size]

theorem asUsize_eq (i : UInt8) (d : CBORDecoder) :
    asUsize i d = if i.toNat ≤ 23 then .ok i.toNat d
      else if i.toNat = 24 then
        match d.rest with
        | b :: _ => .ok b.toNat (d.advance 1)
        | [] => .error .decodingError d
      else .error .decodingError d := by
  unfold asUsize
  by_cases h₁ : i.toNat ≤ 23
  · simp [h₁, UInt8.le_iff_toNat_le, UInt8.size]
  · have h₂ : ¬ i ≤ 0x17 := by simpa [UInt8.le_iff_toNat_le, UInt8.size] using h₁
    by_cases h₃ : i.toNat = 24
    · have h₄ : (0x18 : UInt8) = i := UInt8.toNat.inj (by simp [h₃, UInt8.size])
      simp only [if_neg h₂, if_pos h₄, if_neg h₁, if_pos h₃]
      rcases hr : d.rest with _ | ⟨b, r⟩
      · rw [bind_error (read_nil hr)]
      · rw [bind_ok (read_cons hr)]; rfl
    · have h₄ : ¬ (0x18 : UInt8) = i := fun h => h₃ (by simp [← h, UInt8.size])
      simp only [if_neg h₂, if_neg h₄, if_neg h₁, if_neg h₃, throw_apply]

theorem asUsize_ok_iff (i : UInt8) (d : CBORDecoder) (n : Nat) (d' : CBORDecoder) :
    asUsize i d = .ok n d' ↔
      i.toNat ≤ 23 ∧ n = i.toNat ∧ d' = d ∨ i.toNat = 24 ∧ ∃ c, [c] <+: d.rest ∧ n = c.toNat ∧ d' = d.advance 1 := by
  rw [asUsize_eq]
  split_ifs with h₁ h₂
  · simp [h₁, show i.toNat ≠ 24 by omega, eq_comm]
  · rcases d.rest with _ | ⟨c, r⟩ <;> simp [eq_comm, h₂]
  · simp only [reduceCtorEq, false_iff]; omega

end CBORDecoder

end Lakers
