import Lakers.Parser.RoundTrip

/-!
# Connection identifiers

`generate_connection_identifier` of `lakers` draws bytes from `get_random_byte` until one, read as an `i8`, lies in
`-24..=23`; `generate_connection_identifier_cbor` writes it as a one-byte CBOR integer, `c` itself for `0..=23` and
`0x1F + |c|` for `-24..=-1`. The draws are the stream of bytes the source returns, so a stream that ends before an
acceptable byte stands for a loop still drawing.

* `generateConnectionIdentifier_spec`: the identifier is the first draw in range, with the draws after it
  (`generateConnectionIdentifier_eq_some_iff`), and the loop ends as soon as one is drawn
  (`generateConnectionIdentifier_isSome`).
* `generateConnectionIdentifierCbor_spec`: the byte written is one `int_raw` accepts, RFC 8949 reads it as the
  identifier, and the `u8` addition of the negative branch never overflows. A C_I made so passes the check of
  `parse_message_1`.
-/

namespace Lakers

namespace ConnectionId

open Cbor EdhocParser

/-! ## `i8` -/

/-- `b as i8`: the same bits, read in two's complement. -/
def asI8 (b : UInt8) : Int8 := ⟨b⟩

/-- `c.unsigned_abs()`: the absolute value, as a `u8`. -/
def unsignedAbs (c : Int8) : UInt8 := UInt8.ofNat c.toInt.natAbs

theorem toInt_asI8 (b : UInt8) :
    (asI8 b).toInt = if b.toNat < 128 then (b.toNat : Int) else (b.toNat : Int) - 256 :=
  Int8.toInt_mk b

theorem lt_iff_toInt_lt {a b : Int8} : a < b ↔ a.toInt < b.toInt := by
  show a.toBitVec.slt b.toBitVec = true ↔ _
  simp [BitVec.slt, Int8.toInt]

theorem le_iff_toInt_le {a b : Int8} : a ≤ b ↔ a.toInt ≤ b.toInt := by
  show a.toBitVec.sle b.toBitVec = true ↔ _
  simp [BitVec.sle, Int8.toInt]

/-! ## The model -/

/-- `generate_connection_identifier`: the draws of `get_random_byte` are the stream `bytes`; the loop draws until
one, as an `i8`, lies in `-24..=23`, and returns it with the draws left. A stream that ends first stands for a loop
still drawing. -/
def generateConnectionIdentifier : List UInt8 → Option (Int8 × List UInt8)
  | [] => none
  | b :: bytes =>
    if asI8 b < -24 ∨ asI8 b > 23 then generateConnectionIdentifier bytes else some (asI8 b, bytes)

/-- `generate_connection_identifier_cbor`: the identifier as a one-byte CBOR integer; `0` for an identifier out of
range. The `u8` addition of the negative branch is checked, as in a debug build. -/
def generateConnectionIdentifierCbor (bytes : List UInt8) : Option (UInt8 × List UInt8) := do
  let (cI, bytes) ← generateConnectionIdentifier bytes
  if cI ≥ 0 ∧ cI ≤ 23 then pure (cI.toUInt8, bytes)
  else if cI < 0 ∧ cI ≥ -24 then do
    let v ← addU8 (cborNegInt1ByteStart - 1) (unsignedAbs cI)
    pure (v, bytes)
  else pure (0, bytes)

example : generateConnectionIdentifierCbor [0x80, 0xE8] = some (0x37, []) := by decide
example : generateConnectionIdentifierCbor [0x18, 0x05, 0x07] = some (0x05, [0x07]) := by decide

/-- The draws the loop keeps: bytes that, as an `i8`, lie in `-24..=23`. -/
def Accepted (b : UInt8) : Prop := b.toNat ≤ 23 ∨ 232 ≤ b.toNat

theorem accepted_iff (b : UInt8) : ¬ (asI8 b < -24 ∨ asI8 b > 23) ↔ Accepted b := by
  have h₁ : (-24 : Int8).toInt = -24 := by decide
  have h₂ : (23 : Int8).toInt = 23 := by decide
  have := UInt8.toNat_lt b
  rw [gt_iff_lt, lt_iff_toInt_lt, lt_iff_toInt_lt, h₁, h₂, toInt_asI8, Accepted]
  split_ifs <;> omega

/-! ## The loop -/

/-- The identifier is the first draw the loop keeps; the draws before it are all rejected. -/
theorem generateConnectionIdentifier_eq_some_iff {s r : List UInt8} {c : Int8} :
    generateConnectionIdentifier s = some (c, r) ↔
      ∃ pre b, s = pre ++ b :: r ∧ (∀ x ∈ pre, ¬ Accepted x) ∧ Accepted b ∧ c = asI8 b := by
  induction s with
  | nil => simp [generateConnectionIdentifier]
  | cons b s ih =>
    rw [generateConnectionIdentifier]
    by_cases hb : Accepted b
    · rw [if_neg ((accepted_iff b).2 hb)]
      constructor
      · rintro ⟨⟩
        exact ⟨[], b, rfl, nofun, hb, rfl⟩
      · rintro ⟨_ | ⟨x, pre⟩, b', hs, hpre, -, rfl⟩ <;> simp only [List.nil_append, List.cons_append,
          List.cons.injEq] at hs
        · rw [hs.1, hs.2]
        · exact absurd (hs.1 ▸ hb) (hpre x (List.mem_cons_self _ _))
    · rw [if_pos (Decidable.not_not.1 (mt (accepted_iff b).1 hb)), ih]
      constructor
      · rintro ⟨pre, b', rfl, hpre, hb', rfl⟩
        exact ⟨b :: pre, b', rfl, List.forall_mem_cons.2 ⟨hb, hpre⟩, hb', rfl⟩
      · rintro ⟨_ | ⟨x, pre⟩, b', hs, hpre, hb', rfl⟩ <;> simp only [List.nil_append, List.cons_append,
          List.cons.injEq] at hs
        · exact absurd (hs.1 ▸ hb') hb
        · exact ⟨pre, b', hs.2, fun y hy => hpre y (List.mem_cons_of_mem _ hy), hb', rfl⟩

/-- The loop ends as soon as the draws hold a byte it keeps. -/
theorem generateConnectionIdentifier_isSome {s : List UInt8} (h : ∃ b ∈ s, Accepted b) :
    (generateConnectionIdentifier s).isSome := by
  induction s with
  | nil => simp at h
  | cons b s ih =>
    rw [generateConnectionIdentifier]
    by_cases hb : Accepted b
    · rw [if_neg ((accepted_iff b).2 hb)]
      rfl
    · rw [if_pos (Decidable.not_not.1 (mt (accepted_iff b).1 hb))]
      obtain ⟨x, hx, hax⟩ := h
      exact ih ⟨x, (List.mem_cons.1 hx).resolve_left (fun h => hb (h ▸ hax)), hax⟩

/-- **The loop.** `generate_connection_identifier` returns the first draw that lies in `-24..=23` as an `i8`, with
the draws after it; while no draw does, it keeps drawing. -/
theorem generateConnectionIdentifier_spec (s : List UInt8) :
    (∀ c r, generateConnectionIdentifier s = some (c, r) ↔
      ∃ pre b, s = pre ++ b :: r ∧ (∀ x ∈ pre, ¬ Accepted x) ∧ Accepted b ∧ c = asI8 b) ∧
    (generateConnectionIdentifier s = none ↔ ∀ b ∈ s, ¬ Accepted b) := by
  refine ⟨fun _ _ => generateConnectionIdentifier_eq_some_iff, fun h b hb ha => ?_, fun h => ?_⟩
  · simpa [h] using generateConnectionIdentifier_isSome ⟨b, hb, ha⟩
  · rcases hg : generateConnectionIdentifier s with _ | ⟨c, r⟩
    · rfl
    · obtain ⟨pre, b, rfl, -, hb, -⟩ := generateConnectionIdentifier_eq_some_iff.1 hg
      exact absurd hb (h b (by simp))

theorem toInt_asI8_of_accepted {b : UInt8} (hb : Accepted b) :
    (asI8 b).toInt = if b.toNat ≤ 23 then (b.toNat : Int) else (b.toNat : Int) - 256 := by
  unfold Accepted at hb
  rw [toInt_asI8]
  split_ifs <;> omega

/-! ## The CBOR byte -/

/-- RFC 8949 reads a byte `int_raw` accepts as an integer item given inline. -/
theorem item_of_isIntRaw {b : UInt8} (hb : IsIntRaw b) (r : List UInt8) :
    item (b :: r) = some (if b.toNat ≤ 23 then .uint b.toNat else .nint (b.toNat - 32), r) :=
  item_int_inline ((isIntRaw_iff b).1 hb) r

/-- A draw in `-24..=-1` is written as `0x1F + c.unsigned_abs()`: the addition does not overflow, and gives the
inline head of the negative integer. -/
theorem addU8_unsignedAbs {b : UInt8} (hb : 232 ≤ b.toNat) :
    ∃ v, addU8 (cborNegInt1ByteStart - 1) (unsignedAbs (asI8 b)) = some v ∧ v.toNat = 287 - b.toNat := by
  have := UInt8.toNat_lt b
  have hu : (unsignedAbs (asI8 b)).toNat = 256 - b.toNat := by
    rw [unsignedAbs, UInt8.toNat_ofNat', toInt_asI8_of_accepted (.inr hb), if_neg (by omega)]
    omega
  have h31 : (cborNegInt1ByteStart - 1).toNat = 31 := rfl
  refine ⟨_, if_pos (by rw [hu, h31]; omega), ?_⟩
  rw [UInt8.toNat_add, hu, h31]
  omega

/-- Whenever the loop ends, `generate_connection_identifier_cbor` does not panic, and the byte it returns is one
that `int_raw` accepts and that RFC 8949 reads as the identifier. -/
theorem generateConnectionIdentifierCbor_spec {s r : List UInt8} {c : Int8}
    (h : generateConnectionIdentifier s = some (c, r)) :
    ∃ b, generateConnectionIdentifierCbor s = some (b, r) ∧ IsIntRaw b ∧ item [b] = some (Item.ofInt c.toInt, []) := by
  obtain ⟨-, b, -, -, hb, rfl⟩ := generateConnectionIdentifier_eq_some_iff.1 h
  have ht := toInt_asI8_of_accepted hb
  have := UInt8.toNat_lt b
  have h₀ : (0 : Int8).toInt = 0 := by decide
  have h₁ : (-24 : Int8).toInt = -24 := by decide
  have h₂ : (23 : Int8).toInt = 23 := by decide
  unfold generateConnectionIdentifierCbor
  simp only [h, Option.bind_eq_bind, Option.some_bind, ge_iff_le, le_iff_toInt_le, lt_iff_toInt_lt, h₀, h₁, h₂, ht]
  unfold Accepted at hb
  by_cases hs : b.toNat ≤ 23
  · rw [if_pos hs, if_pos (by omega)]
    have hi : IsIntRaw b := (isIntRaw_iff b).2 (.inl hs)
    refine ⟨b, rfl, hi, ?_⟩
    rw [item_of_isIntRaw hi, if_pos hs, Item.ofInt, if_pos (by omega)]
    rfl
  · rw [if_neg hs, if_neg (by omega), if_pos (by omega)]
    obtain ⟨v, hv, hsum⟩ := addU8_unsignedAbs (b := b) (by omega)
    have hi : IsIntRaw v := (isIntRaw_iff v).2 (.inr (by rw [hsum]; omega))
    refine ⟨v, by rw [hv]; rfl, hi, ?_⟩
    rw [item_of_isIntRaw hi, hsum, if_neg (by omega), Item.ofInt, if_neg (by omega),
      show (-1 - ((b.toNat : Int) - 256)).toNat = 287 - b.toNat - 32 by omega]

end ConnectionId

end Lakers
