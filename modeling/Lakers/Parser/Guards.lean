import Lakers.Parser.RoundTrip

/-!
# What the head guards of the parsers check

Two parsers decide a branch on the additional information of a CBOR head rather than on the number it encodes.
`parse_suites_i` takes an array only when `info_of(curr) >= 2`, meaning to reject arrays of fewer than two suites;
the ID_CRED branch of the plaintext decoders takes a byte string only when `info_of > 1`, meaning to reject byte
strings of length 0 or 1. Both guards do reject the heads that give the count inline (`parseSuitesI_shortArray`,
`parseIdCred_shortBstr`). But a head whose count follows in one byte has additional information 24, which passes
either guard whatever the count, 0 and 1 included (`parseSuitesI_oneByteCount`, `parseIdCred_oneByteLength`).

`parseMessage1_arrayOfNoSuites` and `decodePlaintext2_emptyCredential` are two such messages, accepted with no
suite and with an empty credential.
-/

namespace Lakers

namespace EdhocParser

open CBORDecoder Cbor Outcome

/-! ## SUITES_I -/

/-- An array head with fewer than two elements given inline (`0x80`, `0x81`) is rejected. -/
theorem parseSuitesI_shortArray {b : UInt8} (hb : b = 0x80 ∨ b = 0x81) (pre r : List UInt8) :
    parseSuitesI (cursor pre (b :: r)) = .err .parsingError := by
  rcases hb with rfl | rfl <;> simp only [parseSuitesI, current_cursor] <;> rfl

/-- An array head whose count follows in one byte (`0x98 n`) passes the guard of `parse_suites_i` for every count
up to `SUITES_LEN`, 0 and 1 included, and the suites after it are read. -/
theorem parseSuitesI_oneByteCount {suites : List UInt8} (h9 : suites.length ≤ suitesLen) (pre r : List UInt8) :
    ∃ v, parseSuitesI (cursor pre ([cborMajorArray + 24, UInt8.ofNat suites.length] ++
        (suites.flatMap encodeUint ++ r))) =
        .ok (v, suites.length,
          cursor (pre ++ [cborMajorArray + 24, UInt8.ofNat suites.length] ++ suites.flatMap encodeUint) r) ∧
      v.toList.take suites.length = suites := by
  have hs : ShortHead cborMajorArray suites.length [cborMajorArray + 24, UInt8.ofNat suites.length] :=
    .inr ⟨by simp only [suitesLen_eq] at h9; omega, rfl⟩
  obtain ⟨v, hv, ht⟩ := parseSuitesLoop_cursor suites 0 (Mathlib.Vector.replicate suitesLen 0)
    (pre ++ [cborMajorArray + 24, UInt8.ofNat suites.length]) r (by omega)
  refine ⟨v, ?_, by simpa using ht⟩
  have hc : ¬ cborUint1ByteStart = typeOf (cborMajorArray + 24) := by decide
  have ha : cborMajorArray = typeOf (cborMajorArray + 24) ∧ infoOf (cborMajorArray + 24) ≥ 2 := by decide
  unfold parseSuitesI
  simp only [List.cons_append, current_cursor, if_neg hc, if_pos ha]
  rw [← List.cons_append, ← List.cons_append, tryRead_of_ok (array_cursor hs pre _)]
  simp only [ok_bind, if_pos h9, hv, pure_eq]

set_option maxRecDepth 10000 in
/-- The message_1 `03 98 00 58 20 ‹32 zero bytes› 00`, whose SUITES_I is an array of no suites, is accepted with
`suites_i_len = 0`. -/
theorem parseMessage1_arrayOfNoSuites :
    parseMessage1 ⟨⟨[0x03, 0x98, 0x00, 0x58, 0x20] ++ List.replicate 32 0 ++ [0x00] ++ List.replicate 154 0,
      by decide⟩, 38⟩ = .ok (3, Mathlib.Vector.replicate _ 0, 0, Mathlib.Vector.replicate _ 0, 0, none) := by
  rfl

/-! ## ID_CRED -/

theorem tryRead_intRaw_of_not {b : UInt8} (hb : ¬ IsIntRaw b) (pre r : List UInt8) :
    tryRead intRaw (cursor pre (b :: r)) = .err .parsingError := by
  unfold tryRead intRaw
  rw [bind_ok (read_cons (rest_cursor _ _)), if_neg (show ¬ (b ≤ 0x17 ∨ (0x20 ≤ b ∧ b ≤ 0x37)) from hb)]
  rfl

/-- A byte string of length 0 or 1 with its length inline (`0x40`, `0x41`) is not taken as a full credential, and
`int_raw` rejects it. -/
theorem parseIdCred_shortBstr {b : UInt8} (hb : b = 0x40 ∨ b = 0x41) (pre r : List UInt8) :
    parseIdCred (cursor pre (b :: r)) = .err .parsingError := by
  have hc : ¬ (cborMajorByteString = typeOf b ∧ infoOf b > 1) := by rcases hb with rfl | rfl <;> decide
  have hi : ¬ IsIntRaw b := by rcases hb with rfl | rfl <;> decide
  unfold parseIdCred
  simp only [current_cursor, tryExcept_ok, ok_bind, if_neg hc, tryRead_intRaw_of_not hi, err_bind]

/-- A byte string whose length follows in one byte (`0x58 n`) passes the guard of the ID_CRED branch for every
length, 0 and 1 included, and is read as a full credential. -/
theorem parseIdCred_oneByteLength {cred : List UInt8} (h : cred.length < 256) (pre r : List UInt8) :
    parseIdCred (cursor pre ([cborByteString, UInt8.ofNat cred.length] ++ (cred ++ r))) =
      .ok (.fullCredential cred, cursor (pre ++ [cborByteString, UInt8.ofNat cred.length] ++ cred) r) := by
  have hs : ShortHead cborMajorByteString cred.length [cborByteString, UInt8.ofNat cred.length] := .inr ⟨h, rfl⟩
  have hc : cborMajorByteString = typeOf cborByteString ∧ infoOf cborByteString > 1 := by decide
  unfold parseIdCred
  simp only [List.cons_append, current_cursor, tryExcept_ok, ok_bind, if_pos hc]
  rw [← List.cons_append, ← List.cons_append, tryRead_of_ok (bytes_cursor hs pre r)]
  rfl

set_option maxRecDepth 10000 in
/-- The PLAINTEXT_2 `00 58 00 48 ‹8 bytes›`, whose ID_CRED_R is a byte string of length 0 in the one-byte-length
form, is accepted as an empty full credential. -/
theorem decodePlaintext2_emptyCredential :
    decodePlaintext2 ⟨⟨[0x00, 0x58, 0x00, 0x48] ++ List.replicate 8 1 ++ List.replicate 180 0, by decide⟩, 12⟩ =
      .ok (0, .fullCredential [], Mathlib.Vector.replicate _ 1, none) := by
  rfl

end EdhocParser

end Lakers
