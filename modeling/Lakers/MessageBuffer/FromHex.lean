import Lakers.MessageBuffer

/-!
# `from_hex`

`from_hex` builds a buffer from hex text: the length is half the text's, and the text is cut in chunks of two bytes,
each read by `from_utf8(..).unwrap()` and `u8::from_str_radix(.., 16).unwrap()` and written to `content[i]`. Each
`unwrap` and the indexing may panic (`none`).

* `fromHex_toHex`: hex text reads back as the bytes it was written from, the buffer `new_from_slice` builds; where
  `new_from_slice` reports `SliceTooLong`, `from_hex` panics.
* `fromHex_toHex_append`: on text of an odd length the last digit is not part of the slice but is written just
  beyond it, so the buffer differs from the one `new_from_slice` builds from the same slice
  (`fromHex_toHex_append_ne`).
* `valid_of_fromHex`: every buffer `from_hex` returns is within its capacity.
* `fromHex_isSome_iff` and `chunkValue_isSome_iff`: it does not panic exactly when the text has at most
  `2 * MAX_MESSAGE_SIZE_LEN` bytes and each chunk is one or two hex digits, or a `+` and one digit.
-/

namespace Lakers

namespace EdhocMessageBuffer

/-! ## The function -/

/-- `chunks(2)` on the bytes of the string: pairs, the last one single when the length is odd. -/
def chunks2 : List UInt8 → List (List UInt8)
  | a :: b :: r => [a, b] :: chunks2 r
  | [a] => [[a]]
  | [] => []

/-- `core::str::from_utf8` on the chunks `from_hex` passes it, of one or two bytes: ASCII bytes, or one two-byte
sequence. -/
def fromUtf8 : List UInt8 → Option (List UInt8)
  | [] => some []
  | [a] => if a < 0x80 then some [a] else none
  | [a, b] =>
    if (a < 0x80 ∧ b < 0x80) ∨ (0xC2 ≤ a ∧ a ≤ 0xDF ∧ 0x80 ≤ b ∧ b ≤ 0xBF) then some [a, b] else none
  | _ => none

/-- `(c as char).to_digit(16)`. -/
def hexDigit (c : UInt8) : Option Nat :=
  if 0x30 ≤ c ∧ c ≤ 0x39 then some (c.toNat - 0x30)
  else if 0x61 ≤ c ∧ c ≤ 0x66 then some (c.toNat - 0x61 + 10)
  else if 0x41 ≤ c ∧ c ≤ 0x46 then some (c.toNat - 0x41 + 10)
  else none

/-- The digit loop of `u8::from_str_radix(_, 16)`: `acc * 16 + digit`, checked against `u8` overflow. -/
def radix16Digits : Nat → List UInt8 → Option UInt8
  | acc, [] => some (UInt8.ofNat acc)
  | acc, c :: cs => do
    let x ← hexDigit c
    if acc * 16 + x < 256 then radix16Digits (acc * 16 + x) cs else none

/-- `u8::from_str_radix(s, 16)`, `none` for `Err`: not empty, a sign alone is an error, a leading `+` is skipped. -/
def fromStrRadix16 : List UInt8 → Option UInt8
  | [] => none
  | c :: rest =>
    if (c = 0x2B ∨ c = 0x2D) ∧ rest = [] then none
    else if c = 0x2B then radix16Digits 0 rest
    else radix16Digits 0 (c :: rest)

/-- The loop of `from_hex`: chunk `i` is parsed and written to `content[i]`; every `unwrap` and the indexing may
panic. -/
def fromHexLoop : Nat → List (List UInt8) → Mathlib.Vector UInt8 maxMessageSizeLen →
    Option (Mathlib.Vector UInt8 maxMessageSizeLen)
  | _, [], content => some content
  | i, chunk :: chunks, content => do
    let chunkStr ← fromUtf8 chunk
    let v ← fromStrRadix16 chunkStr
    let content ← indexSet content i v
    fromHexLoop (i + 1) chunks content

/-- `from_hex`: a buffer of length `hex.len() / 2` holding the bytes the hex digits give; `none` where it panics. -/
def fromHex (hex : List UInt8) : Option EdhocMessageBuffer := do
  let content ← fromHexLoop 0 (chunks2 hex) new.content
  pure ⟨content, hex.length / 2⟩

/-! ## Hex text of bytes -/

/-- The lowercase hex digit of `d < 16`. -/
def hexChar (d : Nat) : UInt8 := if d < 10 then UInt8.ofNat (0x30 + d) else UInt8.ofNat (0x61 + d - 10)

/-- A byte as two hex digits, high half first. -/
def hexPair (b : UInt8) : List UInt8 := [hexChar (b.toNat / 16), hexChar (b.toNat % 16)]

/-- Bytes as hex text. -/
def toHex (bytes : List UInt8) : List UInt8 := bytes.flatMap hexPair

theorem hexChar_spec : ∀ d < 16, hexDigit (hexChar d) = some d ∧ hexChar d < 0x80 ∧ hexChar d ≠ 0x2B ∧
    hexChar d ≠ 0x2D := by
  decide

theorem fromStrRadix16_hexPair (b : UInt8) : fromStrRadix16 (hexPair b) = some b := by
  have hb := UInt8.toNat_lt b
  obtain ⟨h₁, -, hp, hm⟩ := hexChar_spec (b.toNat / 16) (by omega)
  obtain ⟨h₂, -, -, -⟩ := hexChar_spec (b.toNat % 16) (by omega)
  simp only [hexPair, fromStrRadix16, hp, hm, or_self, false_and, if_false, radix16Digits, h₁, h₂,
    Option.bind_eq_bind, Option.some_bind, Nat.zero_mul, Nat.zero_add, if_pos (show b.toNat / 16 < 256 by omega),
    if_pos (show b.toNat / 16 * 16 + b.toNat % 16 < 256 by omega)]
  exact congrArg some (UInt8.toNat.inj (by rw [UInt8.toNat_ofNat']; omega))

theorem fromUtf8_hexPair (b : UInt8) : fromUtf8 (hexPair b) = some (hexPair b) := by
  have hb := UInt8.toNat_lt b
  have h₁ := (hexChar_spec (b.toNat / 16) (by omega)).2.1
  have h₂ := (hexChar_spec (b.toNat % 16) (by omega)).2.1
  simp only [hexPair, fromUtf8, h₁, h₂, true_and, true_or, if_true]

theorem chunks2_toHex (bytes : List UInt8) : chunks2 (toHex bytes) = bytes.map hexPair := by
  induction bytes with
  | nil => rfl
  | cons b bs ih => simp only [toHex, List.flatMap_cons, List.map_cons, ← ih]; rfl

theorem length_toHex (bytes : List UInt8) : (toHex bytes).length = 2 * bytes.length := by
  induction bytes with
  | nil => rfl
  | cons b bs ih =>
    simp only [toHex, List.flatMap_cons, List.length_append, List.length_cons] at ih ⊢
    rw [ih, show (hexPair b).length = 2 from rfl]
    omega

/-- The loop writes the bytes of hex pairs one after the other from index `i`, and panics once past the
capacity. -/
theorem fromHexLoop_map_hexPair : ∀ (bytes : List UInt8) (i : Nat) (v : Mathlib.Vector UInt8 maxMessageSizeLen),
    i ≤ maxMessageSizeLen →
    fromHexLoop i (bytes.map hexPair) v =
      if h : i + bytes.length ≤ maxMessageSizeLen then some (writeAt v i bytes h) else none
  | [], i, v, hi => by
    rw [dif_pos (by simpa using hi)]
    refine congrArg some (Subtype.ext ?_)
    show v.toList = (writeAt v i [] _).toList
    simp
  | b :: bs, i, v, hi => by
    simp only [List.map_cons, fromHexLoop, fromUtf8_hexPair, fromStrRadix16_hexPair, Option.bind_eq_bind,
      Option.some_bind]
    rcases Nat.lt_or_ge i maxMessageSizeLen with hlt | hge
    · rw [indexSet_of_lt v b hlt, Option.some_bind, fromHexLoop_map_hexPair bs (i + 1) _ hlt]
      by_cases hfit : i + 1 + bs.length ≤ maxMessageSizeLen
      · rw [dif_pos hfit, dif_pos (by simpa [Nat.add_assoc, Nat.add_comm 1] using hfit)]
        refine congrArg some (Subtype.ext ?_)
        show (writeAt _ _ _ _).toList = (writeAt _ _ _ _).toList
        have hv : i < v.toList.length := by simpa using hlt
        rw [toList_writeAt, toList_writeAt, take_succ_set, Mathlib.Vector.toList_set,
          List.drop_set_of_lt _ _ (show i < _ by omega)]
        simp [Nat.add_assoc, Nat.add_comm 1]
      · rw [dif_neg hfit, dif_neg (by simpa [Nat.add_assoc, Nat.add_comm 1] using hfit)]
    · rw [indexSet_of_le v b hge, Option.none_bind, dif_neg (by simp only [List.length_cons]; omega)]

/-- `from_hex` reads hex text back as the bytes it was written from: the same buffer as `new_from_slice` builds
when they fit, and a panic where `new_from_slice` reports `SliceTooLong`. -/
theorem fromHex_toHex (bytes : List UInt8) :
    fromHex (toHex bytes) = match newFromSlice bytes with
      | .ok b => some b
      | .error _ => none := by
  unfold fromHex newFromSlice fillWithSlice
  rw [chunks2_toHex, fromHexLoop_map_hexPair bytes 0 _ (Nat.zero_le _), length_toHex,
    Nat.mul_div_cancel_left _ (by decide)]
  simp only [Nat.zero_add]
  split_ifs <;> rfl

theorem hexDigit_spec {d : UInt8} {x : Nat} (h : hexDigit d = some x) :
    x < 16 ∧ d < 0x80 ∧ d ≠ 0x2B ∧ d ≠ 0x2D := by
  unfold hexDigit at h
  split_ifs at h with h₁ h₂ h₃ <;> cases h <;>
    simp only [UInt8.le_iff_toNat_le, UInt8.lt_iff_toNat_lt, ne_eq, UInt8.eq_iff_toNat_eq, UInt8.toNat_lit] at * <;>
    omega

theorem chunks2_toHex_append (bytes : List UInt8) (d : UInt8) :
    chunks2 (toHex bytes ++ [d]) = bytes.map hexPair ++ [[d]] := by
  induction bytes with
  | nil => rfl
  | cons b bs ih =>
    show chunks2 (hexPair b ++ (toHex bs ++ [d])) = hexPair b :: (bs.map hexPair ++ [[d]])
    rw [← ih]
    rfl

theorem fromHexLoop_append : ∀ (cs ds : List (List UInt8)) (i : Nat) (v : Mathlib.Vector UInt8 maxMessageSizeLen),
    fromHexLoop i (cs ++ ds) v = (fromHexLoop i cs v).bind (fromHexLoop (i + cs.length) ds)
  | [], ds, i, v => rfl
  | c :: cs, ds, i, v => by
    simp only [List.cons_append, fromHexLoop, List.append_eq, fromHexLoop_append cs ds (i + 1), Option.bind_eq_bind,
      Option.bind_assoc, List.length_cons]
    rw [show i + 1 + cs.length = i + (cs.length + 1) by omega]

/-- On hex text of an odd length, `from_hex` drops the last digit from the buffer's slice but writes its value to
the array just beyond it. -/
theorem fromHex_toHex_append {bytes : List UInt8} (hl : bytes.length < maxMessageSizeLen) {d : UInt8} {x : Nat}
    (hd : hexDigit d = some x) :
    ∃ b, fromHex (toHex bytes ++ [d]) = some b ∧ b.asSlice = some bytes ∧
      b.content.toList[bytes.length]? = some (UInt8.ofNat x) := by
  obtain ⟨hx, h80, hp, hm⟩ := hexDigit_spec hd
  have hlen : (toHex bytes ++ [d]).length / 2 = bytes.length := by
    rw [List.length_append, length_toHex, List.length_singleton]; omega
  have hw : bytes.length ≤ maxMessageSizeLen := hl.le
  refine ⟨⟨(writeAt new.content 0 bytes (by simpa using hw)).set ⟨bytes.length, hl⟩ (UInt8.ofNat x),
    bytes.length⟩, ?_, ?_, ?_⟩
  · simp only [fromHex, chunks2_toHex_append, fromHexLoop_append, fromHexLoop_map_hexPair bytes 0 _ (Nat.zero_le _),
      Nat.zero_add, dif_pos hw, List.length_map, Option.some_bind, Option.bind_eq_bind, fromHexLoop, fromUtf8,
      if_pos h80, fromStrRadix16, hp, hm, or_self, and_true, if_false, radix16Digits, hd, Nat.zero_mul,
      if_pos (show x < 256 by omega), indexSet_of_lt _ _ hl, hlen, Option.pure_def]
  · rw [asSlice_of_valid hw, Mathlib.Vector.toList_set, List.set_take,
      List.set_eq_of_length_le (List.length_take_le _ _)]
    simp
  · rw [Mathlib.Vector.toList_set, List.getElem?_set_self (by simp only [Mathlib.Vector.toList_length]; exact hl)]

/-- The buffer `from_hex` reads from odd text is not the buffer `new_from_slice` builds from its slice, when the
last digit is not `0`: the derived equality tells apart two buffers with the same `as_slice`. -/
theorem fromHex_toHex_append_ne {bytes : List UInt8} (hl : bytes.length < maxMessageSizeLen) {d : UInt8} {x : Nat}
    (hd : hexDigit d = some x) (hx : x ≠ 0) :
    ∃ b b', fromHex (toHex bytes ++ [d]) = some b ∧ newFromSlice bytes = .ok b' ∧ b.asSlice = b'.asSlice ∧
      b ≠ b' := by
  obtain ⟨b, hb, hs, hget⟩ := fromHex_toHex_append hl hd
  have hw : bytes.length ≤ maxMessageSizeLen := hl.le
  refine ⟨b, ⟨writeAt new.content 0 bytes (by simpa using hw), bytes.length⟩, hb, ?_, ?_, ?_⟩
  · simp only [newFromSlice, fillWithSlice, dif_pos hw]
  · rw [hs, asSlice_of_valid hw]
    simp
  · rintro rfl
    have h16 := (hexDigit_spec hd).1
    simp only [toList_writeAt, new, toList_replicate, List.take_zero, List.nil_append, Nat.zero_add,
      List.getElem?_append_right (Nat.le_refl _), Nat.sub_self] at hget
    rw [List.getElem?_drop, List.getElem?_replicate, if_pos (by simpa using hl), Option.some.injEq] at hget
    have := congrArg UInt8.toNat hget
    rw [UInt8.toNat_ofNat', Nat.mod_eq_of_lt (by omega)] at this
    exact hx (by simpa using this.symm)

theorem fromHex_toHex_append_ne_one :
    ([] : List UInt8).length < maxMessageSizeLen ∧ hexDigit 0x31 = some 1 ∧ (1 : Nat) ≠ 0 ∧
    ∃ b b', fromHex (toHex [] ++ [0x31]) = some b ∧ newFromSlice [] = .ok b' ∧ b.asSlice = b'.asSlice ∧ b ≠ b' :=
  ⟨by decide, rfl, by decide, @fromHex_toHex_append_ne [] (by decide) 0x31 1 rfl (by decide)⟩

/-! ## What `from_hex` accepts -/

theorem length_chunks2 : ∀ l : List UInt8, (chunks2 l).length = (l.length + 1) / 2
  | a :: b :: r => by simp only [chunks2, List.length_cons, length_chunks2 r]; omega
  | [_] => by simp [chunks2]
  | [] => rfl

theorem fromHexLoop_length : ∀ (cs : List (List UInt8)) (i : Nat) (v w : Mathlib.Vector UInt8 maxMessageSizeLen),
    fromHexLoop i cs v = some w → cs = [] ∨ i + cs.length ≤ maxMessageSizeLen
  | [], _, _, _, _ => .inl rfl
  | c :: cs, i, v, w, h => by
    simp only [fromHexLoop, Option.bind_eq_bind, Option.bind_eq_some] at h
    obtain ⟨_, -, _, -, u, hu, h⟩ := h
    obtain ⟨hi, -⟩ := indexSet_eq_some hu
    refine .inr ?_
    rcases fromHexLoop_length cs (i + 1) _ w h with rfl | h' <;> simp only [List.length_cons, List.length_nil] <;> omega

/-- Every buffer `from_hex` returns is within its capacity, so its `as_slice` does not panic. -/
theorem valid_of_fromHex {hex : List UInt8} {b : EdhocMessageBuffer} (h : fromHex hex = some b) : Valid b := by
  simp only [fromHex, Option.bind_eq_bind, Option.bind_eq_some, Option.pure_def, Option.some.injEq] at h
  obtain ⟨w, hw, rfl⟩ := h
  have := fromHexLoop_length _ 0 _ w hw
  rw [← List.length_eq_zero, length_chunks2] at this
  show hex.length / 2 ≤ maxMessageSizeLen
  omega

/-- What the loop body makes of one chunk: `u8::from_str_radix(from_utf8(chunk).unwrap(), 16).unwrap()`. -/
def chunkValue (chunk : List UInt8) : Option UInt8 := (fromUtf8 chunk).bind fromStrRadix16

theorem radix16Digits_one (d : UInt8) : radix16Digits 0 [d] = (hexDigit d).map UInt8.ofNat := by
  rcases h : hexDigit d with _ | x
  · simp [radix16Digits, h]
  · simp [radix16Digits, h, (hexDigit_spec h).1.trans (by decide : 16 < 256)]

theorem radix16Digits_two (d e : UInt8) :
    radix16Digits 0 [d, e] = (hexDigit d).bind fun x => (hexDigit e).map fun y => UInt8.ofNat (16 * x + y) := by
  rcases h₁ : hexDigit d with _ | x
  · simp [radix16Digits, h₁]
  · rcases h₂ : hexDigit e with _ | y
    · simp [radix16Digits, h₁, h₂, (hexDigit_spec h₁).1.trans (by decide : 16 < 256)]
    · have := (hexDigit_spec h₁).1
      have := (hexDigit_spec h₂).1
      simp [radix16Digits, h₁, h₂, show x < 256 by omega, show x * 16 + y < 256 by omega,
        show 16 * x + y < 256 by omega, Nat.mul_comm x]

theorem hexDigit_of_not_ascii {d : UInt8} (h : ¬ d < 0x80) : hexDigit d = none :=
  Option.eq_none_iff_forall_not_mem.2 fun _ hx => h (hexDigit_spec hx).2.1

theorem chunkValue_one (a : UInt8) : chunkValue [a] = (hexDigit a).map UInt8.ofNat := by
  simp only [chunkValue, fromUtf8]
  split_ifs with h80
  · by_cases hs : a = 0x2B ∨ a = 0x2D
    · rcases hs with rfl | rfl <;> rfl
    · rw [Option.some_bind, fromStrRadix16, if_neg (fun h => hs h.1), if_neg (fun h => hs (.inl h)),
        radix16Digits_one]
  · rw [hexDigit_of_not_ascii h80]
    rfl

theorem chunkValue_two (a b : UInt8) :
    chunkValue [a, b] = if a = 0x2B then (hexDigit b).map UInt8.ofNat
      else (hexDigit a).bind fun x => (hexDigit b).map fun y => UInt8.ofNat (16 * x + y) := by
  simp only [chunkValue, fromUtf8]
  by_cases hu : (a < 0x80 ∧ b < 0x80) ∨ (0xC2 ≤ a ∧ a ≤ 0xDF ∧ 0x80 ≤ b ∧ b ≤ 0xBF)
  · rw [if_pos hu, Option.some_bind, fromStrRadix16, if_neg (by simp)]
    split_ifs
    · rw [radix16Digits_one]
    · rw [radix16Digits_two]
  · rw [if_neg hu, Option.none_bind]
    by_cases ha : a < 0x80
    · have hb : ¬ b < 0x80 := fun hb => hu (.inl ⟨ha, hb⟩)
      split_ifs <;> simp [hexDigit_of_not_ascii hb]
    · have ha' : a ≠ 0x2B := fun h => ha (h ▸ by decide)
      simp [ha', hexDigit_of_not_ascii ha]

/-- A chunk of one or two bytes is read exactly when its bytes are hex digits, or when it is a `+` and one hex
digit. -/
theorem chunkValue_isSome_iff {c : List UInt8} (hc : c.length = 1 ∨ c.length = 2) :
    (chunkValue c).isSome ↔ (∀ d ∈ c, (hexDigit d).isSome) ∨ ∃ e, c = [0x2B, e] ∧ (hexDigit e).isSome := by
  have hp : hexDigit 0x2B = none := by decide
  rcases c with _ | ⟨a, _ | ⟨b, _ | ⟨_, _⟩⟩⟩ <;> simp only [List.length_nil, List.length_cons] at hc <;>
    try omega
  · simp [chunkValue_one]
  · rw [chunkValue_two]
    split_ifs with ha
    · simp [ha, hp]
    · rcases h₁ : hexDigit a <;> rcases h₂ : hexDigit b <;> simp [ha, h₁, h₂]

theorem length_of_mem_chunks2 : ∀ {l c : List UInt8}, c ∈ chunks2 l → c.length = 1 ∨ c.length = 2
  | _ :: _ :: _, _, h => by
    rcases List.mem_cons.1 h with rfl | h
    · exact .inr rfl
    · exact length_of_mem_chunks2 h
  | [_], _, h => by
    rw [chunks2, List.mem_singleton] at h
    exact .inl (h ▸ rfl)
  | [], _, h => nomatch h

example : chunkValue [0x2B, 0x35] = some 5 := by decide

theorem fromHexLoop_cons (i : Nat) (c : List UInt8) (cs : List (List UInt8))
    (v : Mathlib.Vector UInt8 maxMessageSizeLen) :
    fromHexLoop i (c :: cs) v = (chunkValue c).bind fun x => (indexSet v i x).bind (fromHexLoop (i + 1) cs) := by
  simp only [fromHexLoop, chunkValue, Option.bind_eq_bind, Option.bind_assoc]

theorem fromHexLoop_isSome_iff : ∀ (cs : List (List UInt8)) (i : Nat) (v : Mathlib.Vector UInt8 maxMessageSizeLen),
    (fromHexLoop i cs v).isSome ↔ (cs = [] ∨ i + cs.length ≤ maxMessageSizeLen) ∧ ∀ c ∈ cs, (chunkValue c).isSome
  | [], _, _ => by simp [fromHexLoop]
  | c :: cs, i, v => by
    have hlen : (c :: cs = [] ∨ i + (c :: cs).length ≤ maxMessageSizeLen) ↔ i + 1 + cs.length ≤ maxMessageSizeLen := by
      rw [List.length_cons, or_iff_right (List.cons_ne_nil _ _)]; omega
    rw [fromHexLoop_cons, List.forall_mem_cons, hlen]
    rcases hcv : chunkValue c with _ | x
    · simp
    · simp only [Option.some_bind, Option.isSome_some, true_and]
      rcases Nat.lt_or_ge i maxMessageSizeLen with hi | hi
      · rw [indexSet_of_lt v x hi, Option.some_bind, fromHexLoop_isSome_iff cs (i + 1), ← List.length_eq_zero]
        exact and_congr_left fun _ => by omega
      · rw [indexSet_of_le v x hi, Option.none_bind, Option.isSome_none]
        exact ⟨nofun, fun h => absurd h.1 (by omega)⟩

/-- `from_hex` does not panic exactly when its text has at most `2 * MAX_MESSAGE_SIZE_LEN` bytes and each chunk of
two bytes, the last one possibly single, is hex digits, or a `+` and one hex digit. -/
theorem fromHex_isSome_iff (hex : List UInt8) :
    (fromHex hex).isSome ↔ hex.length ≤ 2 * maxMessageSizeLen ∧
      ∀ c ∈ chunks2 hex, (∀ d ∈ c, (hexDigit d).isSome) ∨ ∃ e, c = [0x2B, e] ∧ (hexDigit e).isSome := by
  have hs : (fromHex hex).isSome = (fromHexLoop 0 (chunks2 hex) new.content).isSome := by
    simp only [fromHex, Option.bind_eq_bind, Option.pure_def]
    cases fromHexLoop 0 (chunks2 hex) new.content <;> rfl
  rw [hs, fromHexLoop_isSome_iff, ← List.length_eq_zero, length_chunks2, Nat.zero_add]
  exact and_congr (by omega) (forall₂_congr fun _ hc => chunkValue_isSome_iff (length_of_mem_chunks2 hc))

end EdhocMessageBuffer

end Lakers
