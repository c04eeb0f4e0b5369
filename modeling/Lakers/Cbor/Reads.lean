import Lakers.Cbor.Decoder
import Lakers.Cbor.Rfc8949

/-!
# What each read of the decoder accepts

Every read of `CBORDecoder` succeeds exactly on the RFC 8949 encodings of the subset it supports, returns the
encoded value, and moves the position past the bytes it read (`reads_characterised`): `u8` reads an unsigned
integer given inline or in one byte, `int_raw` one byte of an inline integer, `str` and `bytes` a string of major
type 3 or 2 whose length is given inline or in one byte, `bytes_sized` such a byte string of the expected length,
and `array` an array head of that kind.

`str`, `bytes` and `array` share one part, reading a head (`headArg`); `headArg_ok_iff` characterises it once, on
the initial byte (`shortHead_prefix_iff`). Read the other way, a successful read took exactly one RFC 8949 item off
the remaining bytes (`item_of_u8`, `item_of_bytes`, `item_of_array`).

`i8` is the one read that does not agree with RFC 8949. It takes one integer item off the remaining bytes, but
returns its value only for an integer given inline or an unsigned integer below `0x80` (`i8_ok_item`): after `0x18`
it casts the argument to `i8` without a range check, and after `0x38` it subtracts `0x20` from the argument as if it
were an inline head, a `u8` subtraction that underflows, a panic, exactly when the argument is below `0x20`
(`i8_eq_none_iff`).
-/

namespace Lakers

namespace CBORDecoder

open Cbor

/-! ## Heads -/

theorem eq_major_add_iff {major b : UInt8} (hm : IsMajor major) {k : Nat} (hk : k < 32) :
    b = major + UInt8.ofNat k ↔ typeOf b = major ∧ (infoOf b).toNat = k := by
  have := UInt8.toNat_lt b
  have := UInt8.toNat_lt major
  unfold IsMajor at hm
  rw [UInt8.eq_iff_toNat_eq, UInt8.eq_iff_toNat_eq, toNat_major_add hm hk, toNat_typeOf, toNat_infoOf]
  omega

theorem ofNat_toNat (c : UInt8) : UInt8.ofNat c.toNat = c :=
  UInt8.toNat.inj (by rw [UInt8.toNat_ofNat', Nat.mod_eq_of_lt (UInt8.toNat_lt c)])

/-- A short head at the front of `b :: r`, read off its initial byte `b`. -/
theorem shortHead_prefix_iff {major : UInt8} (hm : IsMajor major) {n : Nat} {hd r : List UInt8} {b : UInt8} :
    ShortHead major n hd ∧ hd <+: b :: r ↔
      typeOf b = major ∧ ((infoOf b).toNat < 24 ∧ n = (infoOf b).toNat ∧ hd = [b] ∨
        (infoOf b).toNat = 24 ∧ ∃ c, [c] <+: r ∧ n = c.toNat ∧ hd = [b, c]) := by
  constructor
  · rintro ⟨⟨hn, rfl⟩ | ⟨hn, rfl⟩, hp⟩
    · obtain ⟨rfl, -⟩ := List.cons_prefix_cons.1 hp
      obtain ⟨ht, hi⟩ := (eq_major_add_iff hm (show n < 32 by omega)).1 rfl
      exact ⟨ht, .inl ⟨by omega, hi.symm, rfl⟩⟩
    · obtain ⟨rfl, hc⟩ := List.cons_prefix_cons.1 hp
      obtain ⟨ht, hi⟩ := (eq_major_add_iff hm (k := 24) (by omega)).1 rfl
      exact ⟨ht, .inr ⟨hi, _, hc, by rw [UInt8.toNat_ofNat', Nat.mod_eq_of_lt hn], rfl⟩⟩
  · rintro ⟨ht, ⟨hi, rfl, rfl⟩ | ⟨hi, c, hc, rfl, rfl⟩⟩
    · exact ⟨.inl ⟨hi, congrArg (· :: []) ((eq_major_add_iff hm (by omega)).2 ⟨ht, rfl⟩)⟩, by simp⟩
    · refine ⟨.inr ⟨UInt8.toNat_lt c, ?_⟩, by simpa using hc⟩
      rw [ofNat_toNat, (eq_major_add_iff hm (k := 24) (by omega)).2 ⟨ht, hi⟩]
      rfl

/-- Reading a head of the given major type whose argument is given inline or in one byte: the part that `str`,
`bytes` and `array` share. -/
def headArg (major : UInt8) : Read Nat := do
  let b ← read
  if major ≠ typeOf b ∨ infoOf b = 31 then throw .decodingError
  else asUsize (infoOf b)

/-- The check for additional information 31 is subsumed by `as_usize`, which rejects it too. -/
theorem headArg_cons (major : UInt8) {d : CBORDecoder} {b : UInt8} {r : List UInt8} (hr : d.rest = b :: r) :
    headArg major d =
      if major = typeOf b then asUsize (infoOf b) (d.advance 1) else .error .decodingError (d.advance 1) := by
  unfold headArg
  rw [bind_ok (read_cons hr)]
  by_cases ht : major = typeOf b
  · by_cases h31 : infoOf b = 31
    · simp [ht, h31, asUsize_eq, UInt8.size]
    · simp [ht, h31]
  · simp [ht]

theorem headArg_ok_iff {major : UInt8} (hm : IsMajor major) (d : CBORDecoder) (n : Nat) (d' : CBORDecoder) :
    headArg major d = .ok n d' ↔ ∃ hd, (ShortHead major n hd ∧ hd <+: d.rest) ∧ d' = d.advance hd.length := by
  rcases hr : d.rest with _ | ⟨b, r⟩
  · unfold headArg
    rw [bind_error (read_nil hr)]
    simp only [List.prefix_nil, reduceCtorEq, false_iff, not_exists, not_and]
    rintro hd ⟨⟨-, rfl⟩ | ⟨-, rfl⟩, h⟩ <;> simp at h
  · have hr1 : (d.advance 1).rest = r := by rw [rest_advance, hr]; rfl
    rw [headArg_cons major hr]
    simp only [shortHead_prefix_iff hm]
    split_ifs with ht
    · rw [asUsize_ok_iff, hr1]
      constructor
      · rintro (⟨h, rfl, rfl⟩ | ⟨h, c, hc, rfl, rfl⟩)
        · exact ⟨[b], ⟨ht.symm, .inl ⟨by omega, rfl, rfl⟩⟩, rfl⟩
        · exact ⟨[b, c], ⟨ht.symm, .inr ⟨h, c, hc, rfl, rfl⟩⟩, by simp⟩
      · rintro ⟨hd, ⟨-, ⟨h, rfl, rfl⟩ | ⟨h, c, hc, rfl, rfl⟩⟩, rfl⟩
        · exact .inl ⟨by omega, rfl, rfl⟩
        · exact .inr ⟨h, c, hc, rfl, by simp⟩
    · simp only [reduceCtorEq, false_iff, not_exists, not_and]
      exact fun _ h _ => ht h.1.symm

theorem shortHead_ne_nil {major : UInt8} {n : Nat} {hd : List UInt8} (h : ShortHead major n hd) : hd ≠ [] := by
  rcases h with ⟨-, rfl⟩ | ⟨-, rfl⟩ <;> simp

theorem shortHead_lt {major : UInt8} {n : Nat} {hd : List UInt8} (h : ShortHead major n hd) : n < 256 := by
  rcases h with ⟨h, -⟩ | ⟨h, -⟩ <;> omega

/-! ## Strings and slices -/

theorem rest_length (d : CBORDecoder) : d.rest.length = d.buf.length - d.pos := List.length_drop _ _

/-- Past a non-empty prefix of the remaining bytes, the position is still within the slice. -/
theorem pos_advance_le {d : CBORDecoder} {hd : List UInt8} (hp : hd <+: d.rest) (hne : hd ≠ []) :
    (d.advance hd.length).pos ≤ d.buf.length := by
  have h₁ := hp.length_le
  have h₂ := List.length_pos.2 hne
  rw [rest_length] at h₁
  simp only [advance_pos]
  omega

theorem append_prefix_iff {hd v l : List UInt8} (hp : hd <+: l) : hd ++ v <+: l ↔ v <+: l.drop hd.length := by
  obtain ⟨t, rfl⟩ := hp
  rw [List.drop_left, List.prefix_append_right_inj]

theorem readSlice_ok_iff {d : CBORDecoder} (h : d.pos ≤ d.buf.length) (n : Nat) (v : List UInt8) (d' : CBORDecoder) :
    readSlice n d = .ok v d' ↔ v.length = n ∧ v <+: d.rest ∧ d' = d.advance n := by
  have hl := rest_length d
  rw [readSlice_eq]
  split_ifs with hc
  · constructor
    · rintro ⟨⟩
      exact ⟨by simp; omega, List.take_prefix _ _, rfl⟩
    · rintro ⟨rfl, hp, rfl⟩
      rw [← List.prefix_iff_eq_take.1 hp]
  · simp only [reduceCtorEq, false_iff, not_and]
    rintro rfl hp
    have := hp.length_le
    omega

theorem majorString_eq (major : UInt8) (d : CBORDecoder) :
    majorString major d = match headArg major d with
      | .ok n d₁ => readSlice n d₁
      | .error e d₁ => .error e d₁ := by
  unfold majorString headArg
  rcases hr : read d with ⟨b, d₁⟩ | ⟨e, d₁⟩
  · rw [bind_ok hr, bind_ok hr]
    split_ifs
    · rfl
    · rcases ha : asUsize (infoOf b) d₁ with ⟨n, d₂⟩ | ⟨e, d₂⟩
      · rw [bind_ok ha]
      · rw [bind_error ha]
  · rw [bind_error hr, bind_error hr]

/-- A string of a major type: a short head giving its length, then that many bytes. -/
theorem majorString_ok_iff {major : UInt8} (hm : IsMajor major) (d : CBORDecoder) (v : List UInt8)
    (d' : CBORDecoder) :
    majorString major d = .ok v d' ↔
      ∃ hd, (ShortHead major v.length hd ∧ hd ++ v <+: d.rest) ∧ d' = d.advance (hd.length + v.length) := by
  rw [majorString_eq]
  constructor
  · intro h
    split at h
    · rename_i n d₁ hh
      obtain ⟨hd, ⟨hs, hp⟩, rfl⟩ := (headArg_ok_iff hm d n d₁).1 hh
      obtain ⟨rfl, hv, rfl⟩ := (readSlice_ok_iff (pos_advance_le hp (shortHead_ne_nil hs)) _ _ _).1 h
      rw [rest_advance] at hv
      exact ⟨hd, ⟨hs, (append_prefix_iff hp).2 hv⟩, by simp⟩
    · cases h
  · rintro ⟨hd, ⟨hs, hp'⟩, rfl⟩
    have hp := (List.prefix_append hd v).trans hp'
    rw [(headArg_ok_iff hm d v.length (d.advance hd.length)).2 ⟨hd, ⟨hs, hp⟩, rfl⟩]
    refine (readSlice_ok_iff (pos_advance_le hp (shortHead_ne_nil hs)) _ _ _).2 ⟨rfl, ?_, by simp⟩
    rw [rest_advance]
    exact (append_prefix_iff hp).1 hp'

theorem str_ok_iff (d : CBORDecoder) (v : List UInt8) (d' : CBORDecoder) :
    str d = .ok v d' ↔
      ∃ hd, (ShortHead cborMajorTextString v.length hd ∧ hd ++ v <+: d.rest) ∧
        d' = d.advance (hd.length + v.length) :=
  majorString_ok_iff isMajor_textString d v d'

theorem bytes_ok_iff (d : CBORDecoder) (v : List UInt8) (d' : CBORDecoder) :
    bytes d = .ok v d' ↔
      ∃ hd, (ShortHead cborMajorByteString v.length hd ∧ hd ++ v <+: d.rest) ∧
        d' = d.advance (hd.length + v.length) :=
  majorString_ok_iff isMajor_byteString d v d'

theorem bytesSized_ok_iff (k : Nat) (d : CBORDecoder) (v : List UInt8) (d' : CBORDecoder) :
    bytesSized k d = .ok v d' ↔ v.length = k ∧ bytes d = .ok v d' := by
  unfold bytesSized
  rcases hb : bytes d with ⟨w, d₁⟩ | ⟨e, d₁⟩
  · rw [bind_ok hb]
    split_ifs with h
    · simp only [pure_apply, EStateM.Result.ok.injEq]
      constructor
      · rintro ⟨rfl, rfl⟩; exact ⟨h, rfl, rfl⟩
      · rintro ⟨-, rfl, rfl⟩; exact ⟨rfl, rfl⟩
    · simp only [throw_apply, reduceCtorEq, false_iff, not_and, EStateM.Result.ok.injEq]
      rintro hk rfl -
      exact h hk
  · rw [bind_error hb]
    simp

/-! ## Arrays and integers -/

theorem array_eq (d : CBORDecoder) : array d = headArg cborMajorArray d := by
  unfold array headArg
  rcases hr : read d with ⟨b, d₁⟩ | ⟨e, d₁⟩
  · rw [bind_ok hr, bind_ok hr]
    by_cases h₁ : cborMajorArray ≠ typeOf b
    · rw [if_pos h₁, if_pos (.inl h₁)]
    · by_cases h₂ : infoOf b = 31
      · rw [if_neg h₁, if_pos h₂, if_pos (.inr h₂)]
      · rw [if_neg h₁, if_neg h₂, if_neg (not_or.2 ⟨h₁, h₂⟩)]
  · rw [bind_error hr, bind_error hr]

theorem array_ok_iff (d : CBORDecoder) (n : Nat) (d' : CBORDecoder) :
    array d = .ok n d' ↔ ∃ hd, (ShortHead cborMajorArray n hd ∧ hd <+: d.rest) ∧ d' = d.advance hd.length := by
  rw [array_eq]
  exact headArg_ok_iff isMajor_array d n d'

theorem u8_eq (d : CBORDecoder) :
    u8 d = match headArg 0 d with
      | .ok n d₁ => .ok (UInt8.ofNat n) d₁
      | .error e d₁ => .error e d₁ := by
  unfold u8
  rcases hr : d.rest with _ | ⟨b, r⟩
  · unfold headArg
    rw [bind_error (read_nil hr), bind_error (read_nil hr)]
  · rw [headArg_cons 0 hr, bind_ok (read_cons hr)]
    have h0 : (0 : UInt8) = typeOf b ↔ b.toNat < 32 := by
      rw [UInt8.eq_iff_toNat_eq, toNat_typeOf, UInt8.toNat_zero]; omega
    by_cases h₁ : b.toNat < 32
    · have hb : infoOf b = b := UInt8.toNat.inj (by rw [toNat_infoOf]; omega)
      rw [if_pos (h0.2 h₁), hb]
      unfold asUsize
      split_ifs
      · simp [ofNat_toNat]
      · rcases hc : read (d.advance 1) with ⟨c, d₂⟩ | ⟨e, d₂⟩
        · rw [bind_ok hc, pure_apply]; simp only [ofNat_toNat]
        · rw [bind_error hc]
      · rfl
    · rw [if_neg (mt h0.1 h₁), if_neg (by simp [UInt8.le_iff_toNat_le, UInt8.size]; omega),
        if_neg (fun h => h₁ (by rw [← h]; decide))]
      rfl

theorem u8_ok_iff (d : CBORDecoder) (v : UInt8) (d' : CBORDecoder) :
    u8 d = .ok v d' ↔ ∃ hd, (ShortHead 0 v.toNat hd ∧ hd <+: d.rest) ∧ d' = d.advance hd.length := by
  rw [u8_eq]
  constructor
  · intro h
    split at h
    · rename_i n d₁ hh
      cases h
      obtain ⟨hd, ⟨hs, hp⟩, rfl⟩ := (headArg_ok_iff isMajor_zero d n _).1 hh
      refine ⟨hd, ⟨?_, hp⟩, rfl⟩
      rwa [UInt8.toNat_ofNat', Nat.mod_eq_of_lt (shortHead_lt hs)]
    · cases h
  · intro h
    rw [(headArg_ok_iff isMajor_zero d v.toNat d').2 h]
    simp only [ofNat_toNat]

theorem intRaw_ok_iff (d : CBORDecoder) (v : UInt8) (d' : CBORDecoder) :
    intRaw d = .ok v d' ↔ (v ≤ 0x17 ∨ (0x20 ≤ v ∧ v ≤ 0x37)) ∧ [v] <+: d.rest ∧ d' = d.advance 1 := by
  unfold intRaw
  rcases hr : d.rest with _ | ⟨b, r⟩
  · rw [bind_error (read_nil hr)]
    simp
  · rw [bind_ok (read_cons hr)]
    split_ifs with h
    · simp only [pure_apply, EStateM.Result.ok.injEq, List.cons_prefix_cons, List.nil_prefix, and_true]
      constructor
      · rintro ⟨rfl, rfl⟩; exact ⟨h, rfl, rfl⟩
      · rintro ⟨-, rfl, rfl⟩; exact ⟨rfl, rfl⟩
    · simp only [throw_apply, reduceCtorEq, false_iff, not_and, List.cons_prefix_cons, List.nil_prefix, and_true]
      rintro hv rfl
      exact absurd hv h

/-! ## Reads as RFC 8949 items -/

theorem rest_eq_append {d : CBORDecoder} {p : List UInt8} (hp : p <+: d.rest) :
    d.rest = p ++ (d.advance p.length).rest := by
  obtain ⟨t, ht⟩ := hp
  rw [rest_advance, ← ht, List.drop_left]

/-- What `u8` reads is one unsigned integer item. -/
theorem item_of_u8 {d d' : CBORDecoder} {v : UInt8} (h : u8 d = .ok v d') :
    item d.rest = some (.uint v.toNat, d'.rest) := by
  obtain ⟨hd, ⟨hs, hp⟩, rfl⟩ := (u8_ok_iff d v d').1 h
  rw [rest_eq_append hp, item_uint hs]

/-- What `bytes` reads is one byte string item. -/
theorem item_of_bytes {d d' : CBORDecoder} {c : List UInt8} (h : bytes d = .ok c d') :
    item d.rest = some (.bstr c, d'.rest) := by
  obtain ⟨hd, ⟨hs, hp⟩, rfl⟩ := (bytes_ok_iff d c d').1 h
  rw [rest_eq_append hp, List.length_append, item_bstr hs]

/-- What `array` reads is the head of an array of that many items. -/
theorem item_of_array {d d' : CBORDecoder} {n : Nat} (h : array d = .ok n d') :
    item d.rest = some (.array n, d'.rest) := by
  obtain ⟨hd, ⟨hs, hp⟩, rfl⟩ := (array_ok_iff d n d').1 h
  rw [rest_eq_append hp, item_array hs]

/-! ## Reading through a known encoding

A decoder that has read `pre` and has `r` left is `cursor pre r`. On an encoding the decoder supports, each read
moves the bytes it reads from `r` to `pre`; the parsers' round trips are chains of these steps. -/

/-- The decoder over `pre ++ r` that has read `pre`. -/
def cursor (pre r : List UInt8) : CBORDecoder := ⟨pre ++ r, pre.length⟩

@[simp] theorem rest_cursor (pre r : List UInt8) : (cursor pre r).rest = r := by
  simp [cursor, rest]

theorem new_eq_cursor (s : List UInt8) : new s = cursor [] s := rfl

theorem advance_cursor (pre hd r : List UInt8) :
    (cursor pre (hd ++ r)).advance hd.length = cursor (pre ++ hd) r := by
  simp [cursor, advance]

@[simp] theorem position_cursor (pre r : List UInt8) : (cursor pre r).position = pre.length := rfl

@[simp] theorem finished_cursor (pre r : List UInt8) : (cursor pre r).finished = r.isEmpty := by
  cases r <;> simp [finished, cursor]

@[simp] theorem remainingBuffer_cursor (pre r : List UInt8) : (cursor pre r).remainingBuffer = .ok r := by
  simp [remainingBuffer, getFrom, cursor]

@[simp] theorem current_cursor (pre : List UInt8) (b : UInt8) (r : List UInt8) :
    (cursor pre (b :: r)).current = .ok b := by
  simp [current, cursor, List.getElem_append_right]

theorem u8_cursor {v : UInt8} {hd : List UInt8} (h : ShortHead 0 v.toNat hd) (pre r : List UInt8) :
    u8 (cursor pre (hd ++ r)) = .ok v (cursor (pre ++ hd) r) :=
  (u8_ok_iff _ _ _).2 ⟨hd, ⟨h, by simp⟩, (advance_cursor ..).symm⟩

theorem intRaw_cursor {v : UInt8} (h : v ≤ 0x17 ∨ (0x20 ≤ v ∧ v ≤ 0x37)) (pre r : List UInt8) :
    intRaw (cursor pre (v :: r)) = .ok v (cursor (pre ++ [v]) r) :=
  (intRaw_ok_iff _ _ _).2 ⟨h, by simp, (advance_cursor pre [v] r).symm⟩

theorem bytes_cursor {c hd : List UInt8} (h : ShortHead cborMajorByteString c.length hd) (pre r : List UInt8) :
    bytes (cursor pre (hd ++ (c ++ r))) = .ok c (cursor (pre ++ hd ++ c) r) :=
  (bytes_ok_iff _ _ _).2 ⟨hd, ⟨h, by simp⟩, by simp [cursor, advance, Nat.add_assoc]⟩

theorem bytesSized_cursor {c hd : List UInt8} (h : ShortHead cborMajorByteString c.length hd) (pre r : List UInt8) :
    bytesSized c.length (cursor pre (hd ++ (c ++ r))) = .ok c (cursor (pre ++ hd ++ c) r) :=
  (bytesSized_ok_iff _ _ _ _).2 ⟨rfl, bytes_cursor h pre r⟩

theorem array_cursor {n : Nat} {hd : List UInt8} (h : ShortHead cborMajorArray n hd) (pre r : List UInt8) :
    array (cursor pre (hd ++ r)) = .ok n (cursor (pre ++ hd) r) :=
  (array_ok_iff _ _ _).2 ⟨hd, ⟨h, by simp⟩, (advance_cursor ..).symm⟩

/-! ## Every read -/

/-- Each read agrees with RFC 8949 on the subset it supports: it succeeds exactly when the remaining bytes start
with such an encoding, returns its value, and moves the position past the head and, for strings, the content. -/
theorem reads_characterised (d : CBORDecoder) :
    (∀ v d', u8 d = .ok v d' ↔ ∃ hd, (ShortHead 0 v.toNat hd ∧ hd <+: d.rest) ∧ d' = d.advance hd.length) ∧
    (∀ v d', intRaw d = .ok v d' ↔ (v ≤ 0x17 ∨ (0x20 ≤ v ∧ v ≤ 0x37)) ∧ [v] <+: d.rest ∧ d' = d.advance 1) ∧
    (∀ v d', bytes d = .ok v d' ↔ ∃ hd, (ShortHead cborMajorByteString v.length hd ∧ hd ++ v <+: d.rest) ∧
      d' = d.advance (hd.length + v.length)) ∧
    (∀ v d', str d = .ok v d' ↔ ∃ hd, (ShortHead cborMajorTextString v.length hd ∧ hd ++ v <+: d.rest) ∧
      d' = d.advance (hd.length + v.length)) ∧
    (∀ k v d', bytesSized k d = .ok v d' ↔ v.length = k ∧ ∃ hd, (ShortHead cborMajorByteString v.length hd ∧
      hd ++ v <+: d.rest) ∧ d' = d.advance (hd.length + v.length)) ∧
    (∀ n d', array d = .ok n d' ↔ ∃ hd, (ShortHead cborMajorArray n hd ∧ hd <+: d.rest) ∧
      d' = d.advance hd.length) :=
  ⟨u8_ok_iff d, intRaw_ok_iff d, bytes_ok_iff d, str_ok_iff d,
    fun k v d' => (bytesSized_ok_iff k d v d').trans (and_congr_right fun _ => bytes_ok_iff d v d'),
    array_ok_iff d⟩

/-! ## `i8` -/

theorem i8_nil {d : CBORDecoder} (hr : d.rest = []) : i8 d = some (.error .decodingError d) := by
  rw [i8, read_nil hr]

theorem i8_cons {d : CBORDecoder} {b : UInt8} {r : List UInt8} (hr : d.rest = b :: r) :
    i8 d = if b ≤ 0x17 then some (.ok ⟨b⟩ (d.advance 1))
      else if 0x20 ≤ b ∧ b ≤ 0x37 then some (.ok (-1 - ⟨b - 0x20⟩) (d.advance 1))
      else if 0x18 = b ∨ 0x38 = b then
        match r with
        | [] => some (.error .decodingError (d.advance 1))
        | c :: _ =>
          if 0x18 = b then some (.ok ⟨c⟩ (d.advance 2))
          else (subU8 c 0x20).map fun x => .ok (-1 - ⟨x⟩) (d.advance 2)
      else some (.error .decodingError (d.advance 1)) := by
  have hr1 : (d.advance 1).rest = r := by rw [rest_advance, hr]; rfl
  rw [i8, read_cons hr]
  dsimp only
  rcases r with _ | ⟨c, r⟩
  · rw [read_nil hr1]
    by_cases h₁ : 0x18 = b <;> by_cases h₂ : 0x38 = b <;>
      simp only [h₁, h₂, if_true, if_false, or_self, or_true, true_or]
  · rw [read_cons hr1, show (d.advance 1).advance 1 = d.advance 2 from rfl]
    by_cases h₁ : 0x18 = b <;> by_cases h₂ : 0x38 = b <;>
      simp only [h₁, h₂, if_true, if_false, or_self, or_true, true_or]

/-- `i8` panics exactly on `0x38` followed by a byte below `0x20`, where `read()? - 0x20` underflows. -/
theorem i8_eq_none_iff (d : CBORDecoder) : i8 d = none ↔ ∃ c r, d.rest = 0x38 :: c :: r ∧ c.toNat < 32 := by
  rcases hr : d.rest with _ | ⟨b, _ | ⟨c, r⟩⟩
  · simp [i8_nil hr]
  · rw [i8_cons hr]
    split_ifs <;> simp
  · have hc : (∃ c' r', b :: c :: r = 0x38 :: c' :: r' ∧ c'.toNat < 32) ↔ b = 0x38 ∧ c.toNat < 32 := by
      simp [and_assoc]
    rw [i8_cons hr, hc]
    split_ifs with h₁ h₂ h₃ h₄ <;> simp only [reduceCtorEq, false_iff, not_and]
    · rintro rfl; exact absurd h₁ (by decide)
    · rintro rfl; exact absurd h₂ (by decide)
    · rintro rfl; exact absurd h₄ (by decide)
    · obtain rfl := (h₃.resolve_left h₄).symm
      rw [Option.map_eq_none', subU8]
      split_ifs with h₅ <;> rw [UInt8.le_iff_toNat_le, show (32 : UInt8).toNat = 32 from rfl] at h₅
      · exact ⟨nofun, fun h => by omega⟩
      · exact ⟨fun _ => ⟨rfl, by omega⟩, fun _ => rfl⟩
    · rintro rfl; exact absurd (.inr rfl) h₃

/-- The item of `b as i8`: `b` itself below `0x80`, and `b - 256` from there. -/
theorem ofInt_toInt_mk (b : UInt8) :
    Item.ofInt (Int8.mk b).toInt = if b.toNat < 128 then .uint b.toNat else .nint (255 - b.toNat) := by
  have := UInt8.toNat_lt b
  rw [Int8.toInt_mk, Item.ofInt]
  split_ifs <;> (try congr 1) <;> omega

/-- The item of `-1 - (x as i8)`. -/
theorem ofInt_toInt_neg_one_sub_mk (x : UInt8) :
    Item.ofInt (-1 - Int8.mk x).toInt = if x.toNat < 128 then .nint x.toNat else .uint (255 - x.toNat) := by
  have := UInt8.toNat_lt x
  rw [Int8.toInt_neg_one_sub_mk, Item.ofInt]
  split_ifs <;> (try congr 1) <;> omega

/-- What `i8` reads is one integer item, and it returns that item's value exactly when the integer is given inline
or is an unsigned integer below `0x80`: after `0x18` it returns the argument cast to `i8` without a range check, and
after `0x38` it subtracts `0x20` from the argument as if it were an inline head. -/
theorem i8_ok_item {d d' : CBORDecoder} {v : Int8} (h : i8 d = some (.ok v d')) :
    ∃ it, item d.rest = some (it, d'.rest) ∧ (∃ n, it = .uint n ∨ it = .nint n) ∧
      (Item.ofInt v.toInt = it ↔ d' = d.advance 1 ∨ ∃ n < 128, it = .uint n) := by
  rcases hr : d.rest with _ | ⟨b, r⟩
  · rw [i8_nil hr] at h; cases h
  have hr1 : (d.advance 1).rest = r := by rw [rest_advance, hr]; rfl
  have hr2 : ∀ {c r'}, r = c :: r' → (d.advance 2).rest = r' := fun h => by rw [rest_advance, hr, h]; rfl
  have h21 : d.advance 2 ≠ d.advance 1 := fun h => absurd (congrArg CBORDecoder.pos h) (by simp)
  rw [i8_cons hr] at h
  simp only [UInt8.le_iff_toNat_le, show (0x17 : UInt8).toNat = 23 from rfl, show (0x20 : UInt8).toNat = 32 from rfl,
    show (0x37 : UInt8).toNat = 55 from rfl] at h
  split_ifs at h with h₁ h₂ h₃ h₄
  · -- `0x00..=0x17`
    cases h
    refine ⟨.uint b.toNat, by rw [item_int_inline (.inl h₁), if_pos h₁, hr1], ⟨_, .inl rfl⟩, iff_of_true ?_ (.inl rfl)⟩
    rw [ofInt_toInt_mk, if_pos (by omega)]
  · -- `0x20..=0x37`
    cases h
    have hsub : (b - 0x20).toNat = b.toNat - 32 := UInt8.toNat_sub_of_le _ _ (UInt8.le_iff_toNat_le.2 h₂.1)
    refine ⟨.nint (b.toNat - 32), by rw [item_int_inline (.inr h₂), if_neg h₁, hr1], ⟨_, .inr rfl⟩,
      iff_of_true ?_ (.inl rfl)⟩
    rw [ofInt_toInt_neg_one_sub_mk, hsub, if_pos (by omega)]
  · -- `0x18`, then the argument
    obtain rfl := h₄.symm
    rcases r with _ | ⟨c, r⟩ <;> cases h
    refine ⟨.uint c.toNat, by rw [hr2 rfl, (item_int_oneByte c r).1], ⟨_, .inl rfl⟩, ?_⟩
    rw [ofInt_toInt_mk]
    split_ifs with hc
    · exact iff_of_true rfl (.inr ⟨_, hc, rfl⟩)
    · exact iff_of_false nofun (by rintro (h | ⟨n, hn, ⟨⟩⟩); exacts [h21 h, hc hn])
  · -- `0x38`, then the argument less `0x20`
    obtain rfl := (h₃.resolve_left h₄).symm
    rcases r with _ | ⟨c, r⟩
    · cases h
    obtain ⟨x, hx, h⟩ := Option.map_eq_some'.1 h
    cases h
    unfold subU8 at hx
    split_ifs at hx with hc
    cases hx
    have hsub : (c - 0x20).toNat = c.toNat - 32 := UInt8.toNat_sub_of_le _ _ hc
    rw [UInt8.le_iff_toNat_le, show (0x20 : UInt8).toNat = 32 from rfl] at hc
    refine ⟨.nint c.toNat, by rw [hr2 rfl, (item_int_oneByte c r).2], ⟨_, .inr rfl⟩, iff_of_false ?_ ?_⟩
    · rw [ofInt_toInt_neg_one_sub_mk, hsub]
      split_ifs <;> simp only [Item.nint.injEq, reduceCtorEq, not_false_eq_true]
      omega
    · rintro (h | ⟨n, -, ⟨⟩⟩)
      exact h21 h
  · cases h

/-- The three failing inputs: `0x18 0xC8`, the unsigned integer 200, reads as `-56`; `0x38 0x80`, the negative
integer -129, reads as `-97`; and `0x38 0x00`, the negative integer -1, panics on `0x00 - 0x20`. -/
theorem i8_oneByteArgument :
    i8 (new [0x18, 0xC8]) = some (.ok (-56) ((new [0x18, 0xC8]).advance 2)) ∧ item [0x18, 0xC8] = some (.uint 200, []) ∧
    i8 (new [0x38, 0x80]) = some (.ok (-97) ((new [0x38, 0x80]).advance 2)) ∧ item [0x38, 0x80] = some (.nint 128, []) ∧
    i8 (new [0x38, 0x00]) = none ∧ item [0x38, 0x00] = some (.nint 0, []) :=
  ⟨rfl, rfl, rfl, rfl, rfl, rfl⟩

end CBORDecoder

end Lakers
