import Lakers.Basic

/-!
# CBOR data items (RFC 8949)

What the decoder is checked against. A data item starts with a head (§3): the major type is the top three bits of
the initial byte; the argument is the low five bits (the additional information) when they are below 24, and
otherwise the big-endian number in the 1, 2, 4 or 8 bytes that follow (additional information 24 to 27). `item`
reads the items of the major types EDHOC uses: unsigned and negative integers, byte and text strings of definite
length, and array heads (an array's elements are the items that follow its head). Additional information 28 to 30
is reserved, and 31 marks an indefinite length; `head` rejects both.

`ShortHead` is the subset the decoder reads: an argument given inline, or in one byte after additional information
24. `head_shortHead` says RFC 8949 reads such a head as that argument, and `item_uint` and `item_bstr` read the
unsigned integers and byte strings with such heads. A CBOR sequence (RFC 8742) is items one after the other;
`decodeSeq` reads them all, to the end of the bytes.
-/

namespace Lakers

namespace Cbor

/-- A data item of major type 0 to 4; an array stands for its head. -/
inductive Item
  | uint (n : Nat)
  | nint (n : Nat)
  | bstr (b : List UInt8)
  | tstr (b : List UInt8)
  | array (n : Nat)
  deriving DecidableEq, Repr

/-- The integer item of `z`: major type 0 with argument `z` when `z ≥ 0`, major type 1 with argument `-1 - z`
otherwise. -/
def Item.ofInt (z : Int) : Item := if 0 ≤ z then .uint z.toNat else .nint (-1 - z).toNat

/-- The big-endian number in `bs`. -/
def beNat (bs : List UInt8) : Nat := bs.foldl (fun acc b => acc * 256 + b.toNat) 0

/-- The head at the front of `s`: major type, argument, and the bytes after the head. -/
def head : List UInt8 → Option (Nat × Nat × List UInt8)
  | [] => none
  | b :: rest =>
    if b.toNat % 32 < 24 then some (b.toNat / 32, b.toNat % 32, rest)
    else if b.toNat % 32 < 28 then
      let k := 2 ^ (b.toNat % 32 - 24)
      if k ≤ rest.length then some (b.toNat / 32, beNat (rest.take k), rest.drop k) else none
    else none

/-- The data item at the front of `s`, and the bytes after it. -/
def item (s : List UInt8) : Option (Item × List UInt8) :=
  match head s with
  | some (0, n, rest) => some (.uint n, rest)
  | some (1, n, rest) => some (.nint n, rest)
  | some (2, n, rest) => if n ≤ rest.length then some (.bstr (rest.take n), rest.drop n) else none
  | some (3, n, rest) => if n ≤ rest.length then some (.tstr (rest.take n), rest.drop n) else none
  | some (4, n, rest) => some (.array n, rest)
  | _ => none

/-- A head of major type `major` (the top three bits) whose argument `n` is given inline (below 24) or in one
following byte (additional information 24). -/
def ShortHead (major : UInt8) (n : Nat) (hd : List UInt8) : Prop :=
  (n < 24 ∧ hd = [major + UInt8.ofNat n]) ∨ (n < 256 ∧ hd = [major + 24, UInt8.ofNat n])

/-- The shortest such head: `major | n` below 24, and `major | 24` followed by `n` up to 255. -/
def shortHead (major : UInt8) (n : Nat) : List UInt8 :=
  if n < 24 then [major + UInt8.ofNat n] else [major + 24, UInt8.ofNat n]

theorem shortHead_shortHead (major : UInt8) {n : Nat} (h : n < 256) : ShortHead major n (shortHead major n) := by
  unfold shortHead ShortHead
  split
  · exact .inl ⟨‹_›, rfl⟩
  · exact .inr ⟨h, rfl⟩

/-- A major type: the top three bits. -/
def IsMajor (major : UInt8) : Prop := major.toNat % 32 = 0

theorem toNat_major_add {major : UInt8} (hm : IsMajor major) {n : Nat} (hn : n < 32) :
    (major + UInt8.ofNat n).toNat = major.toNat + n := by
  have := UInt8.toNat_lt major
  unfold IsMajor at hm
  rw [UInt8.toNat_add, UInt8.toNat_ofNat']
  omega

theorem head_inline {b : UInt8} (h : b.toNat % 32 < 24) (r : List UInt8) :
    head (b :: r) = some (b.toNat / 32, b.toNat % 32, r) := by
  simp [head, h]

theorem beNat_take_one (c : UInt8) (r : List UInt8) : beNat ((c :: r).take 1) = c.toNat := by
  show 0 * 256 + c.toNat = c.toNat
  omega

theorem head_oneByte {b : UInt8} (h : b.toNat % 32 = 24) (c : UInt8) (r : List UInt8) :
    head (b :: c :: r) = some (b.toNat / 32, c.toNat, r) := by
  simp [head, h, beNat_take_one]

theorem head_shortHead {major : UInt8} (hm : IsMajor major) {n : Nat} {hd : List UInt8} (h : ShortHead major n hd)
    (r : List UInt8) : head (hd ++ r) = some (major.toNat / 32, n, r) := by
  have := UInt8.toNat_lt major
  have hm' := hm
  unfold IsMajor at hm'
  rcases h with ⟨hn, rfl⟩ | ⟨hn, rfl⟩
  · have hb := toNat_major_add hm (show n < 32 by omega)
    rw [List.singleton_append, head_inline (by rw [hb]; omega), hb]
    simp only [Option.some.injEq, Prod.mk.injEq, and_true]
    omega
  · have hb : (major + 24).toNat = major.toNat + 24 := toNat_major_add hm (show 24 < 32 by omega)
    rw [List.cons_append, List.singleton_append, head_oneByte (by rw [hb]; omega), hb, UInt8.toNat_ofNat',
      Nat.mod_eq_of_lt hn]
    simp only [Option.some.injEq, Prod.mk.injEq, and_true]
    omega

theorem isMajor_zero : IsMajor 0 := rfl
theorem isMajor_byteString : IsMajor cborMajorByteString := rfl
theorem isMajor_textString : IsMajor cborMajorTextString := rfl
theorem isMajor_array : IsMajor cborMajorArray := rfl

/-- RFC 8949 reads a short head of major type 0 as that unsigned integer. -/
theorem item_uint {n : Nat} {hd : List UInt8} (h : ShortHead 0 n hd) (r : List UInt8) :
    item (hd ++ r) = some (.uint n, r) := by
  simp [item, head_shortHead isMajor_zero h r]

/-- RFC 8949 reads a short head of major type 2 and its content as that byte string. -/
theorem item_bstr {c hd : List UInt8} (h : ShortHead cborMajorByteString c.length hd) (r : List UInt8) :
    item (hd ++ c ++ r) = some (.bstr c, r) := by
  rw [List.append_assoc, item, head_shortHead isMajor_byteString h]
  simp [cborMajorByteString]

/-- RFC 8949 reads a short head of major type 4 as the head of an array of that many items. -/
theorem item_array {n : Nat} {hd : List UInt8} (h : ShortHead cborMajorArray n hd) (r : List UInt8) :
    item (hd ++ r) = some (.array n, r) := by
  simp [item, head_shortHead isMajor_array h r, cborMajorArray]

/-- RFC 8949 reads a byte `0x00..=0x17` or `0x20..=0x37` as the integer given inline. -/
theorem item_int_inline {b : UInt8} (hb : b.toNat ≤ 23 ∨ (32 ≤ b.toNat ∧ b.toNat ≤ 55)) (r : List UInt8) :
    item (b :: r) = some (if b.toNat ≤ 23 then .uint b.toNat else .nint (b.toNat - 32), r) := by
  rw [item, head_inline (by omega)]
  rcases hb with h | h
  · rw [show b.toNat / 32 = 0 by omega, show b.toNat % 32 = b.toNat by omega, if_pos h]
  · rw [show b.toNat / 32 = 1 by omega, show b.toNat % 32 = b.toNat - 32 by omega, if_neg (by omega)]

/-- RFC 8949 reads `0x18 c` and `0x38 c` as the integers whose argument is the byte `c`. -/
theorem item_int_oneByte (c : UInt8) (r : List UInt8) :
    item (0x18 :: c :: r) = some (.uint c.toNat, r) ∧ item (0x38 :: c :: r) = some (.nint c.toNat, r) := by
  constructor <;> rw [item, head_oneByte (by decide)] <;> rfl

/-- The data items of a CBOR sequence read one after the other to the end of the bytes, at most `n` of them. -/
def seqItems : Nat → List UInt8 → Option (List Item)
  | _, [] => some []
  | 0, _ :: _ => none
  | n + 1, b :: bs =>
    match item (b :: bs) with
    | some (i, r) => (seqItems n r).map (i :: ·)
    | none => none

/-- The data items of a CBOR sequence. Every item takes at least one byte, so as many as there are bytes suffice. -/
def decodeSeq (s : List UInt8) : Option (List Item) := seqItems s.length s

@[simp] theorem seqItems_nil (n : Nat) : seqItems n [] = some [] := by
  cases n <;> rfl

theorem seqItems_succ {s r : List UInt8} {i : Item} (hs : s ≠ []) (h : item s = some (i, r)) (n : Nat) :
    seqItems (n + 1) s = (seqItems n r).map (i :: ·) := by
  obtain ⟨b, bs, rfl⟩ := List.exists_cons_of_ne_nil hs
  simp [seqItems, h]

/-- The first `k` data items at the front of `s`, and the bytes after them. -/
def items : Nat → List UInt8 → Option (List Item × List UInt8)
  | 0, s => some ([], s)
  | k + 1, s =>
    match item s with
    | some (i, r) => (items k r).map fun p => (i :: p.1, p.2)
    | none => none

theorem items_succ {s r : List UInt8} {i : Item} (h : item s = some (i, r)) (k : Nat) :
    items (k + 1) s = (items k r).map fun p => (i :: p.1, p.2) := by
  simp [items, h]

end Cbor

end Lakers
