import Lakers.Parser

/-!
# The parsers read back what a peer encodes

The canonical encodings of message_1 and of the plaintexts, as the EDHOC peer builds them, and the theorems that
the parsers return exactly the encoded fields:

* `parseMessage1_encodeMessage1`: method, the suite list (a bare integer for one suite, an array for more), G_X,
  C_I and an optional EAD item.
* `decodePlaintext_encodePlaintext`: C_R (for PLAINTEXT_2), ID_CRED as a compact key id or a full credential,
  the MAC and an optional EAD item.

Each proof walks the decoder through the encoding with the steps of `Lakers.Cbor.Reads` (`u8_cursor` and
friends), one field at a time; `parseSuitesI_encodeSuites`, `parseIdCred_encodeIdCred` and
`parseEadTail_encodeEad` are the fields that branch.
-/

namespace Lakers

namespace EdhocParser

open CBORDecoder Cbor Outcome

/-! ## Encodings -/

/-- A byte `int_raw` reads: an integer given inline, `0x00..=0x17` or `0x20..=0x37`. -/
def IsIntRaw (v : UInt8) : Prop := v ≤ 0x17 ∨ (0x20 ≤ v ∧ v ≤ 0x37)

instance : DecidablePred IsIntRaw := fun v => inferInstanceAs (Decidable (v ≤ 0x17 ∨ (0x20 ≤ v ∧ v ≤ 0x37)))

theorem isIntRaw_iff (v : UInt8) : IsIntRaw v ↔ v.toNat ≤ 23 ∨ (32 ≤ v.toNat ∧ v.toNat ≤ 55) := by
  simp only [IsIntRaw, UInt8.le_iff_toNat_le, UInt8.toNat_lit]

/-- `uint(v)`: the shortest head of the unsigned integer `v`. -/
def encodeUint (v : UInt8) : List UInt8 := shortHead 0 v.toNat

/-- SUITES_I: one suite as an unsigned integer, several as an array of them. -/
def encodeSuites : List UInt8 → List UInt8
  | [s] => encodeUint s
  | suites => shortHead cborMajorArray suites.length ++ suites.flatMap encodeUint

/-- An EAD item as the peer sends it: a label, whether it is critical, and the value bytes (none when empty). -/
structure Ead where
  label : UInt8
  isCritical : Bool
  value : List UInt8
  deriving DecidableEq, Repr

/-- The labels an EAD item can have: 0 to 23 when not critical, 1 to 24 when critical. -/
def Ead.Valid (e : Ead) : Prop := if e.isCritical then 1 ≤ e.label.toNat ∧ e.label.toNat ≤ 24 else e.label.toNat ≤ 23

instance : DecidablePred Ead.Valid := fun e =>
  inferInstanceAs (Decidable (if e.isCritical then 1 ≤ e.label.toNat ∧ e.label.toNat ≤ 24 else e.label.toNat ≤ 23))

/-- The label byte: the label as an unsigned integer, or a critical label `k` as the negative integer `-k`. -/
def Ead.labelByte (e : Ead) : UInt8 := if e.isCritical then 0x1F + e.label else e.label

/-- An EAD item: its label byte, then its value. -/
def Ead.encode (e : Ead) : List UInt8 := e.labelByte :: e.value

/-- An optional EAD item at the end of a message. -/
def encodeEad : Option Ead → List UInt8
  | none => []
  | some e => e.encode

/-- The parsed item `i` carries `e`: the same label and criticality, and a value buffer holding exactly `e.value`
when that is not empty, none otherwise. -/
def Ead.Parsed (e : Ead) (i : EADItem) : Prop :=
  i.label = e.label ∧ i.isCritical = e.isCritical ∧
    (e.value = [] ∧ i.value = none ∨ e.value ≠ [] ∧ ∃ b, i.value = some b ∧ b.asSlice = some e.value)

/-- message_1: method, SUITES_I, G_X as a byte string of `P256_ELEM_LEN` bytes, C_I, and an optional EAD item. -/
def encodeMessage1 (method : UInt8) (suites : List UInt8) (gX : BytesP256ElemLen) (cI : UInt8) (ead : Option Ead) :
    List UInt8 :=
  encodeUint method ++ encodeSuites suites ++ shortHead cborMajorByteString p256ElemLen ++ gX.toList ++ [cI] ++
    encodeEad ead

example : shortHead cborMajorByteString p256ElemLen = [0x58, 0x20] := by decide

/-- ID_CRED: a compact key id as its byte, a full credential as a byte string. -/
def encodeIdCred : IdCred → List UInt8
  | .compactKid kid => [kid]
  | .fullCredential cred => shortHead cborMajorByteString cred.length ++ cred

/-- The identifiers a peer sends: a key id `int_raw` reads, or a credential of at least two bytes. -/
def IdCred.WellFormed : IdCred → Prop
  | .compactKid kid => IsIntRaw kid
  | .fullCredential cred => 2 ≤ cred.length

instance : DecidablePred IdCred.WellFormed
  | .compactKid kid => inferInstanceAs (Decidable (IsIntRaw kid))
  | .fullCredential cred => inferInstanceAs (Decidable (2 ≤ cred.length))

/-- PLAINTEXT_3, and PLAINTEXT_2 after C_R: ID_CRED, the MAC as a byte string, and an optional EAD item. -/
def encodePlaintext (idCred : IdCred) (mac : List UInt8) (ead : Option Ead) : List UInt8 :=
  encodeIdCred idCred ++ shortHead cborMajorByteString mac.length ++ mac ++ encodeEad ead

/-! ## Heads -/

theorem shortHead_eq_cons {major : UInt8} (hm : IsMajor major) (n : Nat) :
    ∃ b t, shortHead major n = b :: t ∧ typeOf b = major ∧ (infoOf b).toNat = min n 24 := by
  unfold shortHead
  split_ifs with h
  · obtain ⟨h₁, h₂⟩ := (eq_major_add_iff hm (show n < 32 by omega)).1 rfl
    exact ⟨_, _, rfl, h₁, by omega⟩
  · obtain ⟨h₁, h₂⟩ := (eq_major_add_iff hm (show 24 < 32 by omega)).1 rfl
    have h₂ : (infoOf (major + 24)).toNat = 24 := h₂
    exact ⟨_, _, rfl, h₁, by omega⟩

theorem encodeUint_shortHead (v : UInt8) : ShortHead 0 v.toNat (encodeUint v) :=
  shortHead_shortHead 0 (UInt8.toNat_lt v)

/-! ## EAD items -/

theorem eadLabel_labelByte {e : Ead} (he : e.Valid) : eadLabel e.labelByte = .ok (e.label, e.isCritical) := by
  obtain ⟨label, crit, value⟩ := e
  have hl := UInt8.toNat_lt label
  unfold Ead.Valid at he
  unfold eadLabel Ead.labelByte
  cases crit with
  | false =>
    simp only [Bool.false_eq_true, if_false] at he ⊢
    rw [if_pos ((isU8_iff _).2 he)]
    rfl
  | true =>
    simp only [if_true] at he ⊢
    have hb : (0x1F + label).toNat = 31 + label.toNat := by rw [UInt8.toNat_add]; simp only [UInt8.toNat_lit]; omega
    have hle : cborNegInt1ByteStart - 1 ≤ 0x1F + label := by
      rw [UInt8.le_iff_toNat_le, hb]; show 31 ≤ _; omega
    have hs : subU8 (0x1F + label) (cborNegInt1ByteStart - 1) = some label := by
      rw [subU8, if_pos hle]
      refine congrArg some (UInt8.toNat.inj ?_)
      rw [UInt8.toNat_sub_of_le _ _ hle, hb]
      show 31 + label.toNat - 31 = _
      omega
    rw [if_neg (by rw [isU8_iff, hb]; omega), if_pos ((isI8_iff _).2 (by rw [hb]; omega))]
    simp only [hs, lift_some, ok_bind, pure_eq]

theorem parseEad_encode {e : Ead} (he : e.Valid) (hv : e.value.length ≤ maxMessageSizeLen) :
    ∃ i, parseEad e.encode = .ok (some i) ∧ e.Parsed i := by
  obtain ⟨v, hp, hv⟩ := parseEad_cons (eadLabel_labelByte he) hv
  exact ⟨_, hp, rfl, rfl, hv⟩

/-- The EAD tail after the fixed fields reads back the optional item. -/
theorem parseEadTail_encodeEad {ead : Option Ead} (he : ∀ e ∈ ead, e.Valid) {len : Nat} (pre : List UInt8)
    (hl : len = (pre ++ encodeEad ead).length) (hm : len ≤ maxMessageSizeLen) :
    ∃ item, parseEadTail len (cursor pre (encodeEad ead)) = .ok item ∧ Option.Rel Ead.Parsed ead item := by
  subst hl
  rw [parseEadTail_cursor]
  cases ead with
  | none => exact ⟨none, rfl, .none⟩
  | some e =>
    obtain ⟨i, hi, hp⟩ := parseEad_encode (he e rfl)
      (by simp only [encodeEad, Ead.encode, List.length_append, List.length_cons] at hm; omega)
    refine ⟨some i, ?_, .some hp⟩
    simp only [encodeEad, Ead.encode, reduceCtorEq, if_false]
    exact hi

/-! ## SUITES_I -/

/-- The loop of `parse_suites_i` reads the suites one after the other into `suites_i`. -/
theorem parseSuitesLoop_cursor : ∀ (suites : List UInt8) (i : Nat) (v : BytesSuites) (pre r : List UInt8),
    i + suites.length ≤ suitesLen →
    ∃ v', parseSuitesLoop suites.length i v (cursor pre (suites.flatMap encodeUint ++ r)) =
        .ok (v', cursor (pre ++ suites.flatMap encodeUint) r) ∧
      v'.toList.take (i + suites.length) = v.toList.take i ++ suites
  | [], i, v, pre, r, _ => ⟨v, by simp [parseSuitesLoop], by simp⟩
  | s :: suites, i, v, pre, r, h => by
    have hi : i < suitesLen := by simp only [List.length_cons] at h; omega
    obtain ⟨v', hv', ht⟩ := parseSuitesLoop_cursor suites (i + 1) (v.set ⟨i, hi⟩ s) (pre ++ encodeUint s) r
      (by simp only [List.length_cons] at h; omega)
    refine ⟨v', ?_, ?_⟩
    · simp only [List.length_cons, parseSuitesLoop, List.flatMap_cons, List.append_assoc]
      rw [tryRead_of_ok (u8_cursor (encodeUint_shortHead s) pre _)]
      simp only [ok_bind, indexSet_of_lt v s hi, lift_some, hv', List.append_assoc]
    · rw [List.length_cons, ← Nat.add_assoc, Nat.add_right_comm, ht, take_succ_set, List.append_assoc]
      rfl

theorem current_of_eq_cons {l t : List UInt8} {b : UInt8} (h : l = b :: t) (pre r : List UInt8) :
    (cursor pre (l ++ r)).current = .ok b := by
  rw [h, List.cons_append, current_cursor]

/-- SUITES_I reads back as the suite list: a bare unsigned integer, or an array of two to `SUITES_LEN`. -/
theorem parseSuitesI_encodeSuites {suites : List UInt8} (h1 : suites ≠ []) (h9 : suites.length ≤ suitesLen)
    (pre r : List UInt8) :
    ∃ v, parseSuitesI (cursor pre (encodeSuites suites ++ r)) =
        .ok (v, suites.length, cursor (pre ++ encodeSuites suites) r) ∧ v.toList.take suites.length = suites := by
  match suites, h1 with
  | [s], _ =>
    obtain ⟨b, t, hbt, hty, -⟩ := shortHead_eq_cons isMajor_zero s.toNat
    refine ⟨(Mathlib.Vector.replicate suitesLen 0).set ⟨0, by simp⟩ s, ?_, take_succ_set _ _ s⟩
    unfold parseSuitesI
    simp only [encodeSuites, current_of_eq_cons (show encodeUint s = b :: t from hbt), cborUint1ByteStart, hty, if_true]
    rw [tryRead_of_ok (u8_cursor (encodeUint_shortHead s) pre r)]
    simp only [ok_bind, indexSet_of_lt _ s (show 0 < suitesLen by simp), lift_some, pure_eq, List.length_singleton]
  | a :: b :: rest, _ =>
    have hn : (a :: b :: rest).length < 24 := by simp only [suitesLen_eq] at h9; omega
    obtain ⟨h0, t, hbt, hty, hinfo⟩ := shortHead_eq_cons isMajor_array (a :: b :: rest).length
    obtain ⟨v, hv, ht⟩ := parseSuitesLoop_cursor (a :: b :: rest) 0 (Mathlib.Vector.replicate suitesLen 0)
      (pre ++ shortHead cborMajorArray (a :: b :: rest).length) r (by omega)
    refine ⟨v, ?_, by simpa using ht⟩
    have hc : ¬ cborUint1ByteStart = typeOf h0 := by rw [hty]; decide
    have ha : cborMajorArray = typeOf h0 ∧ infoOf h0 ≥ 2 := ⟨hty.symm, by
      rw [ge_iff_le, UInt8.le_iff_toNat_le, hinfo]; simp only [List.length_cons, UInt8.toNat_lit]; omega⟩
    unfold parseSuitesI
    simp only [encodeSuites, List.append_assoc, current_of_eq_cons hbt, if_neg hc, if_pos ha]
    rw [tryRead_of_ok (array_cursor (shortHead_shortHead cborMajorArray (by omega)) pre _)]
    simp only [ok_bind, if_pos h9, hv, pure_eq, List.append_assoc]

/-! ## message_1 -/

/-- `parse_message_1` reads back every field of a message_1 that fits the buffer. -/
theorem parseMessage1_encodeMessage1 (method : UInt8) (suites : List UInt8) (gX : BytesP256ElemLen) (cI : UInt8)
    (ead : Option Ead) (hs : 1 ≤ suites.length ∧ suites.length ≤ suitesLen) (hc : IsIntRaw cI)
    (he : ∀ e ∈ ead, e.Valid) (m : EdhocMessageBuffer) (hm : m.asSlice = some (encodeMessage1 method suites gX cI ead)) :
    ∃ suitesI item, parseMessage1 m = .ok (method, suitesI, suites.length, gX, cI, item) ∧
      suitesI.toList.take suites.length = suites ∧ Option.Rel Ead.Parsed ead item := by
  have hlen := EdhocMessageBuffer.length_of_asSlice hm
  obtain ⟨v, hv, hvt⟩ := parseSuitesI_encodeSuites (List.ne_nil_of_length_pos hs.1) hs.2 ([] ++ encodeUint method)
    (shortHead cborMajorByteString p256ElemLen ++ (gX.toList ++ (cI :: encodeEad ead)))
  have hg := bytesSized_cursor (shortHead_shortHead cborMajorByteString (show gX.toList.length < 256 by simp))
    ([] ++ encodeUint method ++ encodeSuites suites) (cI :: encodeEad ead)
  rw [gX.toList_length] at hg
  obtain ⟨item, hi, hit⟩ := parseEadTail_encodeEad he
    ([] ++ encodeUint method ++ encodeSuites suites ++ shortHead cborMajorByteString p256ElemLen ++ gX.toList ++ [cI])
    (by rw [← hlen]; simp [encodeMessage1]) (EdhocMessageBuffer.valid_of_asSlice hm)
  refine ⟨v, item, ?_, hvt, hit⟩
  unfold parseMessage1
  simp only [hm, lift_some, ok_bind, new_eq_cursor, encodeMessage1, List.append_assoc, List.singleton_append]
  rw [tryRead_of_ok (u8_cursor (encodeUint_shortHead method) [] _)]
  simp only [ok_bind, hv, tryRead_of_ok hg, copyFromSlice_of_length _ gX.toList_length, lift_some,
    tryRead_of_ok (intRaw_cursor hc _ _), hi, pure_eq]
  rfl

set_option maxRecDepth 10000 in
theorem parseMessage1_encodeMessage1_array :
    (1 ≤ ([6, 2] : List UInt8).length ∧ ([6, 2] : List UInt8).length ≤ suitesLen) ∧ IsIntRaw 0x37 ∧
    (∀ e ∈ some (⟨1, true, [5, 6]⟩ : Ead), e.Valid) ∧
    (⟨⟨encodeMessage1 3 [6, 2] (Mathlib.Vector.replicate _ 0) 0x37 (some ⟨1, true, [5, 6]⟩) ++ List.replicate 150 0,
      by decide⟩, 42⟩ : EdhocMessageBuffer).asSlice =
      some (encodeMessage1 3 [6, 2] (Mathlib.Vector.replicate _ 0) 0x37 (some ⟨1, true, [5, 6]⟩)) ∧
    ∃ suitesI item, parseMessage1 ⟨⟨encodeMessage1 3 [6, 2] (Mathlib.Vector.replicate _ 0) 0x37
        (some ⟨1, true, [5, 6]⟩) ++ List.replicate 150 0, by decide⟩, 42⟩ =
        .ok (3, suitesI, ([6, 2] : List UInt8).length, Mathlib.Vector.replicate _ 0, 0x37, item) ∧
      suitesI.toList.take ([6, 2] : List UInt8).length = [6, 2] ∧ Option.Rel Ead.Parsed (some ⟨1, true, [5, 6]⟩) item := by
  have hs : 1 ≤ ([6, 2] : List UInt8).length ∧ ([6, 2] : List UInt8).length ≤ suitesLen := by decide
  have hc : IsIntRaw 0x37 := by decide
  have he : ∀ e ∈ some (⟨1, true, [5, 6]⟩ : Ead), e.Valid := by
    simp only [Option.mem_def, Option.some.injEq, forall_eq']; decide
  refine ⟨hs, hc, he, rfl, parseMessage1_encodeMessage1 _ _ _ _ _ hs hc he _ ?_⟩
  rfl

/-! ## PLAINTEXT_2 and PLAINTEXT_3 -/

/-- ID_CRED reads back as the identifier: a compact key id through `int_raw`, a credential of two bytes or more
as a byte string. -/
theorem parseIdCred_encodeIdCred {idCred : IdCred} (hi : IdCred.WellFormed idCred)
    (hl : (encodeIdCred idCred).length ≤ 256) (pre r : List UInt8) :
    parseIdCred (cursor pre (encodeIdCred idCred ++ r)) = .ok (idCred, cursor (pre ++ encodeIdCred idCred) r) := by
  unfold parseIdCred
  cases idCred with
  | compactKid kid =>
    have hc : ¬ (cborMajorByteString = typeOf kid ∧ infoOf kid > 1) := by
      have ht := toNat_typeOf kid
      simp only [IdCred.WellFormed, isIntRaw_iff] at hi
      rw [UInt8.eq_iff_toNat_eq, ht]
      show ¬ (64 = _ ∧ _)
      omega
    simp only [encodeIdCred, List.singleton_append, current_cursor, tryExcept_ok, ok_bind, if_neg hc]
    rw [tryRead_of_ok (intRaw_cursor hi pre r)]
    rfl
  | fullCredential cred =>
    obtain ⟨b, t, hbt, hty, hinfo⟩ := shortHead_eq_cons isMajor_byteString cred.length
    have hlt : cred.length < 256 := by
      simp only [encodeIdCred, List.length_append, hbt, List.length_cons] at hl; omega
    have hc : cborMajorByteString = typeOf b ∧ infoOf b > 1 := ⟨hty.symm, by
      simp only [IdCred.WellFormed] at hi
      rw [gt_iff_lt, UInt8.lt_iff_toNat_lt, hinfo]
      show 1 < min cred.length 24
      omega⟩
    simp only [encodeIdCred, List.append_assoc, current_of_eq_cons hbt, tryExcept_ok, ok_bind, if_pos hc]
    rw [tryRead_of_ok (bytes_cursor (shortHead_shortHead _ hlt) pre r)]
    simp only [ok_bind, pure_eq, List.append_assoc]

/-- What follows C_R reads back: ID_CRED, the MAC and the optional EAD item. -/
theorem decodePlaintextTail_encodePlaintext {idCred : IdCred} (hi : IdCred.WellFormed idCred) {macLen : Nat}
    (mac : Mathlib.Vector UInt8 macLen) {ead : Option Ead} (he : ∀ e ∈ ead, e.Valid) (pre : List UInt8) {len : Nat}
    (hl : len = (pre ++ encodePlaintext idCred mac.toList ead).length) (hm : len ≤ maxMessageSizeLen) :
    ∃ item, decodePlaintextTail macLen len (cursor pre (encodePlaintext idCred mac.toList ead)) =
      .ok (idCred, mac, item) ∧ Option.Rel Ead.Parsed ead item := by
  have hlen : (encodeIdCred idCred).length ≤ 256 ∧ mac.toList.length < 256 := by
    simp only [hl, encodePlaintext, List.length_append, maxMessageSizeLen_eq] at hm; omega
  obtain ⟨item, hit, hrel⟩ := parseEadTail_encodeEad he
    (pre ++ encodeIdCred idCred ++ shortHead cborMajorByteString mac.toList.length ++ mac.toList)
    (by simp [hl, encodePlaintext, Nat.add_assoc]) hm
  have hmac := bytesSized_cursor (shortHead_shortHead cborMajorByteString hlen.2)
    (pre ++ encodeIdCred idCred) (encodeEad ead)
  rw [mac.toList_length] at hmac hit
  refine ⟨item, ?_, hrel⟩
  unfold decodePlaintextTail
  simp only [encodePlaintext, List.append_assoc, parseIdCred_encodeIdCred hi hlen.1, ok_bind, mac.toList_length,
    tryRead_of_ok hmac, copyFromSlice_of_length _ mac.toList_length, lift_some]
  simp only [← List.append_assoc, hit, ok_bind, pure_eq]
  rfl

/-- `decode_plaintext_2` and `decode_plaintext_3` read back every field of a plaintext that fits the buffer. -/
theorem decodePlaintext_encodePlaintext (cR : UInt8) (idCred : IdCred) (mac : BytesMac2) (ead : Option Ead)
    (hc : IsIntRaw cR) (hi : IdCred.WellFormed idCred) (he : ∀ e ∈ ead, e.Valid) (m₂ m₃ : EdhocMessageBuffer)
    (h₂ : m₂.asSlice = some (cR :: encodePlaintext idCred mac.toList ead))
    (h₃ : m₃.asSlice = some (encodePlaintext idCred mac.toList ead)) :
    (∃ item, decodePlaintext2 m₂ = .ok (cR, idCred, mac, item) ∧ Option.Rel Ead.Parsed ead item) ∧
    (∃ item, decodePlaintext3 m₃ = .ok (idCred, mac, item) ∧ Option.Rel Ead.Parsed ead item) := by
  constructor
  · obtain ⟨item, hit, hrel⟩ := decodePlaintextTail_encodePlaintext hi mac he ([] ++ [cR])
      (EdhocMessageBuffer.length_of_asSlice h₂).symm (EdhocMessageBuffer.valid_of_asSlice h₂)
    refine ⟨item, ?_, hrel⟩
    unfold decodePlaintext2
    simp only [h₂, lift_some, ok_bind, new_eq_cursor]
    rw [tryRead_of_ok (intRaw_cursor hc [] _)]
    simp only [ok_bind, hit, pure_eq]
  · obtain ⟨item, hit, hrel⟩ := decodePlaintextTail_encodePlaintext hi mac he []
      (EdhocMessageBuffer.length_of_asSlice h₃).symm (EdhocMessageBuffer.valid_of_asSlice h₃)
    refine ⟨item, ?_, hrel⟩
    unfold decodePlaintext3
    simp only [h₃, lift_some, ok_bind, new_eq_cursor]
    exact hit

set_option maxRecDepth 10000 in
theorem decodePlaintext_encodePlaintext_credential :
    IsIntRaw 0 ∧ IdCred.WellFormed (.fullCredential [0xA1, 0x04]) ∧ (∀ e ∈ (none : Option Ead), e.Valid) ∧
    (⟨⟨0 :: encodePlaintext (.fullCredential [0xA1, 0x04]) (List.replicate 8 1) none ++ List.replicate 179 0,
      by decide⟩, 13⟩ : EdhocMessageBuffer).asSlice =
      some (0 :: encodePlaintext (.fullCredential [0xA1, 0x04]) (Mathlib.Vector.replicate macLength2 1).toList none) ∧
    (⟨⟨encodePlaintext (.fullCredential [0xA1, 0x04]) (List.replicate 8 1) none ++ List.replicate 180 0,
      by decide⟩, 12⟩ : EdhocMessageBuffer).asSlice =
      some (encodePlaintext (.fullCredential [0xA1, 0x04]) (Mathlib.Vector.replicate macLength2 1).toList none) ∧
    (∃ item, decodePlaintext2 ⟨⟨0 :: encodePlaintext (.fullCredential [0xA1, 0x04]) (List.replicate 8 1) none ++
        List.replicate 179 0, by decide⟩, 13⟩ =
        .ok (0, .fullCredential [0xA1, 0x04], Mathlib.Vector.replicate macLength2 1, item) ∧
      Option.Rel Ead.Parsed none item) ∧
    (∃ item, decodePlaintext3 ⟨⟨encodePlaintext (.fullCredential [0xA1, 0x04]) (List.replicate 8 1) none ++
        List.replicate 180 0, by decide⟩, 12⟩ =
        .ok (.fullCredential [0xA1, 0x04], Mathlib.Vector.replicate macLength2 1, item) ∧
      Option.Rel Ead.Parsed none item) := by
  have hc : IsIntRaw 0 := by decide
  have hi : IdCred.WellFormed (.fullCredential [0xA1, 0x04]) := by decide
  have he : ∀ e ∈ (none : Option Ead), e.Valid := nofun
  refine ⟨hc, hi, he, rfl, rfl, decodePlaintext_encodePlaintext _ _ _ _ hc hi he _ _ ?_ ?_⟩ <;> rfl

end EdhocParser

end Lakers
