import Mathlib.Data.Vector.Basic

/-!
# Constants, errors and Rust primitives of `lakers-shared`

The constants and error types of `shared/src/lib.rs`, and the few pieces of Rust's core library the parsers use.

A Rust function returning `Result<α, ε>` is modelled as a function into `Outcome ε α`: it returns `Ok`, returns
`Err`, or panics. One that returns no `Result` but may panic is a function into `Option α`, `none` being the panic;
inside an `Outcome` computation it is lifted, `none` to `panic`. The panics of the source are the bounds checks of
indexing and slicing, the length check of `copy_from_slice`, `unwrap` on an `Err`, and the overflow check of `u8`
arithmetic (debug builds); each primitive below panics exactly where its Rust counterpart does. A `&mut self`
method returning a `Result` is an `EStateM` action, so that the state after an error is kept too.

Bytes are `UInt8`; lengths and positions (`usize`) are `Nat`. The lemmas `UInt8.le_iff_toNat_le` and friends move
byte comparisons to `Nat`, where `omega` decides them.
-/

namespace Lakers

/-! ## Constants -/

/-- `MAX_MESSAGE_SIZE_LEN`: the capacity of a message buffer. -/
def maxMessageSizeLen : Nat := 128 + 64

/-- `SUITES_LEN`: the capacity of the initiator's list of cipher suites. -/
def suitesLen : Nat := 9

/-- `P256_ELEM_LEN`: the length of an ephemeral public key (an x-coordinate). -/
def p256ElemLen : Nat := 32

/-- `SHA256_DIGEST_LEN`. -/
def sha256DigestLen : Nat := 32

/-- `MAC_LENGTH`, and `MAC_LENGTH_2 = MAC_LENGTH_3 = MAC_LENGTH`. -/
def macLength : Nat := 8

/-- `MAC_LENGTH_2`. -/
def macLength2 : Nat := macLength

/-- `MAC_LENGTH_3`. -/
def macLength3 : Nat := macLength2

/-- `MAX_KDF_CONTEXT_LEN`. -/
def maxKdfContextLen : Nat := 150

/-- `MAX_KDF_LABEL_LEN`. -/
def maxKdfLabelLen : Nat := 15

/-- `MAX_BUFFER_LEN`: the size of the output of the key derivation and of the exporter. -/
def maxBufferLen : Nat := 256

/-- `MAX_INFO_LEN`: the size of the `info` buffer of the key derivation. -/
def maxInfoLen : Nat := 2 + sha256DigestLen + 1 + maxKdfLabelLen + 1 + maxKdfContextLen + 1

@[simp] theorem maxMessageSizeLen_eq : maxMessageSizeLen = 192 := rfl
@[simp] theorem suitesLen_eq : suitesLen = 9 := rfl
@[simp] theorem p256ElemLen_eq : p256ElemLen = 32 := rfl
@[simp] theorem macLength2_eq : macLength2 = 8 := rfl
@[simp] theorem macLength3_eq : macLength3 = 8 := rfl
@[simp] theorem maxKdfContextLen_eq : maxKdfContextLen = 150 := rfl
@[simp] theorem maxBufferLen_eq : maxBufferLen = 256 := rfl
@[simp] theorem maxInfoLen_eq : maxInfoLen = 202 := rfl

/-- `CBOR_BYTE_STRING`: the head of a byte string whose length follows in one byte. -/
def cborByteString : UInt8 := 0x58

/-- `CBOR_UINT_1BYTE`: the head of an unsigned integer that follows in one byte. -/
def cborUint1Byte : UInt8 := 0x18

/-- `CBOR_NEG_INT_1BYTE_START`. -/
def cborNegInt1ByteStart : UInt8 := 0x20

/-- `CBOR_NEG_INT_1BYTE_END`. -/
def cborNegInt1ByteEnd : UInt8 := 0x37

/-- `CBOR_UINT_1BYTE_START`. -/
def cborUint1ByteStart : UInt8 := 0x0

/-- `CBOR_UINT_1BYTE_END`. -/
def cborUint1ByteEnd : UInt8 := 0x17

/-- `CBOR_MAJOR_TEXT_STRING`. -/
def cborMajorTextString : UInt8 := 0x60

/-- `CBOR_MAJOR_BYTE_STRING`. -/
def cborMajorByteString : UInt8 := 0x40

/-- `CBOR_MAJOR_ARRAY`. -/
def cborMajorArray : UInt8 := 0x80

/-- `BytesSuites = [u8; SUITES_LEN]`. -/
abbrev BytesSuites := Mathlib.Vector UInt8 suitesLen

/-- `BytesP256ElemLen = [u8; P256_ELEM_LEN]`. -/
abbrev BytesP256ElemLen := Mathlib.Vector UInt8 p256ElemLen

/-- `BytesMac2 = [u8; MAC_LENGTH_2]`. -/
abbrev BytesMac2 := Mathlib.Vector UInt8 macLength2

/-- `BytesMac3 = [u8; MAC_LENGTH_3]`. -/
abbrev BytesMac3 := Mathlib.Vector UInt8 macLength3

/-- `BytesMaxContextBuffer = [u8; MAX_KDF_CONTEXT_LEN]`. -/
abbrev BytesMaxContextBuffer := Mathlib.Vector UInt8 maxKdfContextLen

/-- `BytesMaxInfoBuffer = [u8; MAX_INFO_LEN]`. -/
abbrev BytesMaxInfoBuffer := Mathlib.Vector UInt8 maxInfoLen

/-! ## Errors -/

/-- `EDHOCError`. -/
inductive EDHOCError
  | unknownPeer
  | macVerificationFailed
  | unsupportedMethod
  | unsupportedCipherSuite
  | parsingError
  | eadLabelTooLongError
  | eadTooLongError
  | eadError
  | unknownError
  deriving DecidableEq, Repr

/-- `MessageBufferError`. -/
inductive MessageBufferError
  | bufferAlreadyFull
  | sliceTooLong
  deriving DecidableEq, Repr

/-- `CBORError`. -/
inductive CBORError
  | decodingError
  deriving DecidableEq, Repr

/-- `impl From<CBORError> for EDHOCError`, the conversion `?` applies in the parsers. -/
def CBORError.into : CBORError → EDHOCError
  | .decodingError => .parsingError

/-! ## Outcomes of Rust calls -/

/-- What a call of a Rust function returning `Result<α, ε>` comes to: `Ok`, `Err`, or a panic. -/
inductive Outcome (ε α : Type) where
  | ok (a : α)
  | err (e : ε)
  | panic
  deriving DecidableEq, Repr

namespace Outcome

variable {ε α β : Type}

/-- Sequencing: an `Err` is returned at once (`?`), and a panic ends the program. -/
def bind : Outcome ε α → (α → Outcome ε β) → Outcome ε β
  | ok a, f => f a
  | err e, _ => err e
  | panic, _ => panic

instance : Monad (Outcome ε) where
  pure := ok
  bind := Outcome.bind

instance : MonadExceptOf ε (Outcome ε) where
  throw := err
  tryCatch x h := match x with
    | err e => h e
    | x => x

@[simp] theorem pure_eq (a : α) : (pure a : Outcome ε α) = ok a := rfl
@[simp] theorem throw_eq (e : ε) : (throw e : Outcome ε α) = err e := rfl
@[simp] theorem ok_bind (a : α) (f : α → Outcome ε β) : ok a >>= f = f a := rfl
@[simp] theorem err_bind (e : ε) (f : α → Outcome ε β) : err e >>= f = err e := rfl
@[simp] theorem panic_bind (f : α → Outcome ε β) : panic >>= f = panic := rfl

/-- A computation that may panic, inside one that also returns a `Result`. -/
instance : MonadLift Option (Outcome ε) where
  monadLift
    | some a => ok a
    | none => panic

@[simp] theorem lift_some (a : α) : (monadLift (some a) : Outcome ε α) = ok a := rfl
@[simp] theorem lift_none : (monadLift (none : Option α) : Outcome ε α) = panic := rfl

theorem lift_eq_ok {o : Option α} {a : α} : (monadLift o : Outcome ε α) = ok a ↔ o = some a := by
  cases o <;> simp

/-- The outcome is not a panic. -/
def NoPanic (x : Outcome ε α) : Prop := x ≠ panic

@[simp] theorem noPanic_ok (a : α) : NoPanic (ok a : Outcome ε α) := nofun
@[simp] theorem noPanic_err (e : ε) : NoPanic (err e : Outcome ε α) := nofun

/-- A sequence does not panic when its first part does not, and nor does the rest after any value of it. -/
theorem NoPanic.bind {x : Outcome ε α} {f : α → Outcome ε β} (hx : NoPanic x)
    (hf : ∀ a, x = ok a → NoPanic (f a)) : NoPanic (x >>= f) := by
  cases x with
  | ok a => exact hf a rfl
  | err e => nofun
  | panic => exact absurd rfl hx

/-- Every error the outcome may be is `e₀`. -/
def ErrOnly (e₀ : ε) (x : Outcome ε α) : Prop := ∀ e, x = err e → e = e₀

@[simp] theorem errOnly_ok (e₀ : ε) (a : α) : ErrOnly e₀ (ok a) := fun _ h => nomatch h
@[simp] theorem errOnly_err (e₀ : ε) : ErrOnly e₀ (err e₀ : Outcome ε α) := fun _ h => (err.inj h).symm
@[simp] theorem errOnly_panic (e₀ : ε) : ErrOnly e₀ (panic : Outcome ε α) := fun _ h => nomatch h

theorem errOnly_lift (e₀ : ε) (o : Option α) : ErrOnly e₀ (monadLift o : Outcome ε α) := by
  cases o <;> simp

/-- A sequence fails only with `e₀` when its first part does, and so does the rest after any value of it. -/
theorem ErrOnly.bind {e₀ : ε} {x : Outcome ε α} {f : α → Outcome ε β} (hx : ErrOnly e₀ x)
    (hf : ∀ a, x = ok a → ErrOnly e₀ (f a)) : ErrOnly e₀ (x >>= f) := by
  cases x with
  | ok a => exact hf a rfl
  | err e => exact fun e' h => hx e' (congrArg err (err.inj h))
  | panic => exact errOnly_panic e₀

/-- An outcome that neither panics nor fails with an error other than `e₀` is `e₀` when none of its values
can be. -/
theorem eq_err_of_forall_ok {e₀ : ε} {x : Outcome ε α} {P : Prop} (hp : NoPanic x) (he : ErrOnly e₀ x)
    (hok : ∀ a, x = ok a → P) (hn : ¬ P) : x = err e₀ := by
  cases x with
  | ok a => exact absurd (hok a rfl) hn
  | err e => rw [he e rfl]
  | panic => exact absurd rfl hp

theorem bind_eq_ok {x : Outcome ε α} {f : α → Outcome ε β} {b : β} :
    x >>= f = ok b ↔ ∃ a, x = ok a ∧ f a = ok b := by
  cases x <;> simp

theorem bind_assoc {γ : Type} (x : Outcome ε α) (f : α → Outcome ε β) (g : β → Outcome ε γ) :
    x >>= f >>= g = x >>= fun a => f a >>= g := by
  cases x <;> rfl

/-- Continuations that agree on every value the first part may return give the same sequence. -/
theorem bind_congr {x : Outcome ε α} {f g : α → Outcome ε β} (h : ∀ a, x = ok a → f a = g a) :
    x >>= f = x >>= g := by
  cases x with
  | ok a => exact h a rfl
  | err e => rfl
  | panic => rfl

end Outcome

/-! ## Bytes as numbers -/

namespace UInt8

theorem le_iff_toNat_le {a b : UInt8} : a ≤ b ↔ a.toNat ≤ b.toNat := by
  simp only [UInt8.le_def, BitVec.le_def]; rfl

theorem lt_iff_toNat_lt {a b : UInt8} : a < b ↔ a.toNat < b.toNat := by
  simp only [UInt8.lt_def, BitVec.lt_def]; rfl

theorem eq_iff_toNat_eq {a b : UInt8} : a = b ↔ a.toNat = b.toNat := ⟨congrArg _, UInt8.toNat.inj⟩

@[simp] theorem toNat_ofNat' (n : Nat) : (UInt8.ofNat n).toNat = n % 256 := rfl

@[simp] theorem toNat_lit (n : Nat) : (no_index (OfNat.ofNat n : UInt8)).toNat = n % 256 := rfl

theorem toNat_add (a b : UInt8) : (a + b).toNat = (a.toNat + b.toNat) % 256 := rfl

theorem toNat_lt (a : UInt8) : a.toNat < 256 := a.toNat_lt_size

@[simp] theorem zero_add (a : UInt8) : 0 + a = a :=
  UInt8.toNat.inj (by rw [toNat_add]; simp [Nat.mod_eq_of_lt (toNat_lt a)])

end UInt8

namespace Int8

/-- `b as i8` keeps the bits, read in two's complement. -/
theorem toInt_mk (b : UInt8) :
    (Int8.mk b).toInt = if b.toNat < 128 then (b.toNat : Int) else (b.toNat : Int) - 256 := by
  show b.toBitVec.toInt = _
  rw [BitVec.toInt_eq_toNat_cond]
  show (if 2 * b.toNat < 2 ^ 8 then (b.toNat : Int) else (b.toNat : Int) - ((2 ^ 8 : Nat) : Int)) = _
  split_ifs <;> omega

/-- `-1 - (x as i8)`, which does not overflow: it is `(255 - x) as i8`. -/
theorem toInt_neg_one_sub_mk (x : UInt8) :
    (-1 - Int8.mk x).toInt = if x.toNat < 128 then -1 - (x.toNat : Int) else 255 - (x.toNat : Int) := by
  have hx := UInt8.toNat_lt x
  have h : (255 - x).toNat = 255 - x.toNat := UInt8.toNat_sub_of_le _ _ (UInt8.le_iff_toNat_le.2 (by
    show _ ≤ 255; omega))
  rw [show -1 - Int8.mk x = Int8.mk (255 - x) from rfl, toInt_mk, h]
  split_ifs <;> omega

end Int8

/-! ## Slices -/

section Slices

variable {α : Type}

/-- `s.get(a..b)`: the elements from `a` to `b`, when `a ≤ b ≤ s.len()`. -/
def getRange (s : List α) (a b : Nat) : Option (List α) :=
  if a ≤ b ∧ b ≤ s.length then some ((s.drop a).take (b - a)) else none

/-- `s.get(a..)`: the elements from `a` on, when `a ≤ s.len()`. -/
def getFrom (s : List α) (a : Nat) : Option (List α) :=
  if a ≤ s.length then some (s.drop a) else none

/-- `dst.copy_from_slice(src)` for an array `dst`: panics unless `src` has the array's length. -/
def copyFromSlice {n : Nat} (_dst : Mathlib.Vector α n) (src : List α) : Option (Mathlib.Vector α n) :=
  if h : src.length = n then some ⟨src, h⟩ else none

/-- The array `v` with `src` written from index `start` on. -/
def writeAt {n : Nat} (v : Mathlib.Vector α n) (start : Nat) (src : List α) (h : start + src.length ≤ n) :
    Mathlib.Vector α n :=
  ⟨v.toList.take start ++ src ++ v.toList.drop (start + src.length), by simp; omega⟩

/-- `dst[start..start + src.len()].copy_from_slice(src)`: panics when the range leaves the array. -/
def copyWithin {n : Nat} (dst : Mathlib.Vector α n) (start : Nat) (src : List α) : Option (Mathlib.Vector α n) :=
  if h : start + src.length ≤ n then some (writeAt dst start src h) else none

/-- `&v[..k]`: panics when `k` is beyond the array. -/
def sliceTo {n : Nat} (v : Mathlib.Vector α n) (k : Nat) : Option (List α) :=
  if k ≤ n then some (v.toList.take k) else none

/-- `v[i] = a`: panics when `i` is out of bounds. -/
def indexSet {n : Nat} (v : Mathlib.Vector α n) (i : Nat) (a : α) : Option (Mathlib.Vector α n) :=
  if h : i < n then some (v.set ⟨i, h⟩ a) else none

/-- `a - b` on `u8`, with the overflow check of a debug build. -/
def subU8 (a b : UInt8) : Option UInt8 :=
  if b ≤ a then some (a - b) else none

/-- `a + b` on `u8`, with the overflow check of a debug build. -/
def addU8 (a b : UInt8) : Option UInt8 :=
  if a.toNat + b.toNat < 256 then some (a + b) else none

/-- `x.unwrap()` on the `Result` of a `&mut self` method: the state after the call, or a panic. -/
def unwrapMut {σ ε : Type} : EStateM.Result ε σ Unit → Option σ
  | .ok _ s => some s
  | .error _ _ => none

@[simp] theorem getRange_eq_some {s : List α} {a b : Nat} {r : List α} :
    getRange s a b = some r ↔ a ≤ b ∧ b ≤ s.length ∧ (s.drop a).take (b - a) = r := by
  unfold getRange; split <;> simp_all [and_assoc]

@[simp] theorem getFrom_eq_some {s : List α} {a : Nat} {r : List α} :
    getFrom s a = some r ↔ a ≤ s.length ∧ s.drop a = r := by
  unfold getFrom; split <;> simp_all

theorem copyFromSlice_of_length {n : Nat} (dst : Mathlib.Vector α n) {src : List α} (h : src.length = n) :
    copyFromSlice dst src = some ⟨src, h⟩ := by
  simp [copyFromSlice, h]

theorem toList_of_copyFromSlice {n : Nat} {dst w : Mathlib.Vector α n} {src : List α}
    (h : copyFromSlice dst src = some w) : w.toList = src := by
  unfold copyFromSlice at h
  split_ifs at h
  cases h
  rfl

theorem indexSet_of_lt {n : Nat} (v : Mathlib.Vector α n) {i : Nat} (a : α) (h : i < n) :
    indexSet v i a = some (v.set ⟨i, h⟩ a) :=
  dif_pos h

theorem indexSet_of_le {n : Nat} (v : Mathlib.Vector α n) {i : Nat} (a : α) (h : n ≤ i) : indexSet v i a = none :=
  dif_neg (Nat.not_lt.2 h)

theorem indexSet_eq_some {n : Nat} {v w : Mathlib.Vector α n} {i : Nat} {a : α} (h : indexSet v i a = some w) :
    ∃ hi : i < n, w = v.set ⟨i, hi⟩ a := by
  unfold indexSet at h
  split_ifs at h with hi
  exact ⟨hi, (Option.some.inj h).symm⟩

@[simp] theorem toList_replicate (n : Nat) (a : α) : (Mathlib.Vector.replicate n a).toList = List.replicate n a := rfl

@[simp] theorem toList_writeAt {n : Nat} (v : Mathlib.Vector α n) (start : Nat) (src : List α)
    (h : start + src.length ≤ n) :
    (writeAt v start src h).toList = v.toList.take start ++ src ++ v.toList.drop (start + src.length) := rfl

/-- The front of an array after a write at `start`: the old front, then the written elements. -/
theorem take_writeAt {n : Nat} (v : Mathlib.Vector α n) (start : Nat) (src : List α) (h : start + src.length ≤ n) :
    (writeAt v start src h).toList.take (start + src.length) = v.toList.take start ++ src := by
  have : (v.toList.take start).length = start := by simp; omega
  rw [toList_writeAt, List.append_assoc, List.take_append_eq_append_take, this]
  simp

/-- A write at `i` leaves the elements beyond `i` as they were. -/
theorem drop_set_of_lt {n : Nat} (v : Mathlib.Vector α n) {i j : Nat} (h : i < n) (hij : i < j) (a : α) :
    (v.set ⟨i, h⟩ a).toList.drop j = v.toList.drop j := by
  rw [Mathlib.Vector.toList_set]
  exact List.drop_set_of_lt _ _ hij

/-- The front of an array after a write at `i`: the old front, then the written element. -/
theorem take_succ_set {n : Nat} (v : Mathlib.Vector α n) {i : Nat} (h : i < n) (a : α) :
    (v.set ⟨i, h⟩ a).toList.take (i + 1) = v.toList.take i ++ [a] := by
  simp [Mathlib.Vector.toList_set, List.set_eq_take_append_cons_drop, h, List.take_append_eq_append_take,
    List.take_take, Nat.min_eq_left h.le]

end Slices

end Lakers
