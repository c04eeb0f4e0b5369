import Lakers.Parser.Soundness

/-!
# What the parsers accept, exactly

The parsers read their fields with the decoder, so a head they accept gives its argument inline or in one following
byte (`ShortHead`), and not only in the shortest way the encoders of `Lakers.Parser.RoundTrip` write it. With the
parsers' guards, this fixes the bytes each one accepts:

* `Message1Form`: the method, SUITES_I (`SuitesForm`: one unsigned integer, or an array head whose count is given
  inline and at least 2, or in one following byte, then that many unsigned integers, at most `SUITES_LEN`), G_X as
  a byte string of `P256_ELEM_LEN` bytes, C_I as one integer byte, and an optional valid EAD item.
* `PlaintextForm`: ID_CRED (`IdCredForm`: a key id that `int_raw` reads, or a byte string whose length is given
  inline and at least 2, or in one following byte), the MAC as a byte string, and an optional valid EAD item.
  PLAINTEXT_2 has C_R before it (`Plaintext2Form`).

The results:

* **Completeness** (`parseMessage1_of_message1Form`, `decodePlaintext2_of_plaintext2Form`,
  `decodePlaintext3_of_plaintextForm`): on bytes of the form, the parsers return its fields, with SUITES_I padded
  with zeros.
* **Soundness** (`message1Form_of_parseMessage1`, `plaintext2Form_of_decodePlaintext2`,
  `plaintextForm_of_decodePlaintext3`): whatever they return `Ok` on has the form.
* **Errors** (`errOnly_parseMessage1`, …): every error they return is `ParsingError`. They never panic on a buffer
  within its capacity, so they answer every other such buffer with `ParsingError`
  (`parseMessage1_iff_message1Form`, `decodePlaintext2_iff_plaintext2Form`, `decodePlaintext3_iff_plaintextForm`).
  `parseEad_iff_encode` says the same of `parse_ead` alone.
-/

namespace Lakers

namespace EdhocParser

open CBORDecoder Cbor Outcome

/-! ## Every error is `ParsingError` -/

section Errors

theorem errOnly_parseEad (s : List UInt8) : ErrOnly .parsingError (parseEad s) := by
  rcases s with _ | ⟨label, tail⟩
  · exact errOnly_err _
  · simp only [parseEad]
    split
    · split_ifs
      · exact ErrOnly.bind (errOnly_lift _ _) fun _ _ => errOnly_ok _ _
      · exact errOnly_ok _ _
    · exact errOnly_err _
    · exact errOnly_panic _

theorem errOnly_parseEadTail (len : Nat) (d : CBORDecoder) : ErrOnly .parsingError (parseEadTail len d) := by
  unfold parseEadTail
  split_ifs
  · exact ErrOnly.bind (errOnly_tryExcept _) fun r _ => errOnly_parseEad r
  · exact errOnly_ok _ _
  · exact errOnly_err _

theorem errOnly_parseIdCred (d : CBORDecoder) : ErrOnly .parsingError (parseIdCred d) := by
  unfold parseIdCred
  refine ErrOnly.bind (errOnly_tryExcept _) fun _ _ => ?_
  split_ifs
  · exact ErrOnly.bind (errOnly_tryRead _ _) fun ⟨_, _⟩ _ => errOnly_ok _ _
  · exact ErrOnly.bind (errOnly_tryRead _ _) fun ⟨_, _⟩ _ => errOnly_ok _ _

theorem errOnly_decodePlaintextTail (macLen len : Nat) (d : CBORDecoder) :
    ErrOnly .parsingError (decodePlaintextTail macLen len d) :=
  ErrOnly.bind (errOnly_parseIdCred d) fun ⟨_, _⟩ _ => ErrOnly.bind (errOnly_tryRead _ _) fun ⟨_, _⟩ _ =>
    ErrOnly.bind (errOnly_lift _ _) fun _ _ => ErrOnly.bind (errOnly_parseEadTail _ _) fun _ _ => errOnly_ok _ _

theorem errOnly_parseMessage1 (m : EdhocMessageBuffer) : ErrOnly .parsingError (parseMessage1 m) := by
  unfold parseMessage1
  refine ErrOnly.bind (errOnly_lift _ _) fun _ _ => ErrOnly.bind (errOnly_tryRead _ _) fun ⟨_, _⟩ _ => ?_
  dsimp only
  split
  · exact ErrOnly.bind (errOnly_tryRead _ _) fun ⟨_, _⟩ _ => ErrOnly.bind (errOnly_lift _ _) fun _ _ =>
      ErrOnly.bind (errOnly_tryRead _ _) fun ⟨_, _⟩ _ => ErrOnly.bind (errOnly_parseEadTail _ _) fun _ _ =>
        errOnly_ok _ _
  · exact errOnly_err _
  · exact errOnly_panic _

theorem errOnly_decodePlaintext2 (m : EdhocMessageBuffer) : ErrOnly .parsingError (decodePlaintext2 m) :=
  ErrOnly.bind (errOnly_lift _ _) fun _ _ => ErrOnly.bind (errOnly_tryRead _ _) fun ⟨_, _⟩ _ =>
    ErrOnly.bind (errOnly_decodePlaintextTail _ _ _) fun ⟨_, _, _⟩ _ => errOnly_ok _ _

theorem errOnly_decodePlaintext3 (m : EdhocMessageBuffer) : ErrOnly .parsingError (decodePlaintext3 m) :=
  ErrOnly.bind (errOnly_lift _ _) fun _ _ => errOnly_decodePlaintextTail _ _ _

end Errors

/-! ## The byte forms -/

/-- SUITES_I as `parse_suites_i` reads it from `hs`: the suites `ss` are one unsigned integer, or an array of at most
`SUITES_LEN` of them whose head's additional information is at least 2, that is, whose count is given inline and
at least 2, or in one following byte of any value. -/
def SuitesForm (hs ss : List UInt8) : Prop :=
  (∃ x, ss = [x] ∧ ShortHead 0 x.toNat hs) ∨
    ∃ hd items, ShortHead cborMajorArray ss.length hd ∧ (2 ≤ ss.length ∨ hd.length = 2) ∧ ss.length ≤ suitesLen ∧
      List.Forall₂ (fun x h => ShortHead 0 x.toNat h) ss items ∧ hs = hd ++ items.flatten

/-- message_1 as `parse_message_1` reads it: the method as an unsigned integer, SUITES_I, G_X as a byte string of
`P256_ELEM_LEN` bytes, C_I as one integer byte, then an optional valid EAD item. -/
def Message1Form (s : List UInt8) (method : UInt8) (ss : List UInt8) (gX : BytesP256ElemLen) (cI : UInt8)
    (ead : Option Ead) : Prop :=
  ∃ hm hs hg, ShortHead 0 method.toNat hm ∧ SuitesForm hs ss ∧ ShortHead cborMajorByteString p256ElemLen hg ∧
    IsIntRaw cI ∧ (∀ e ∈ ead, e.Valid) ∧ s = hm ++ hs ++ hg ++ gX.toList ++ cI :: encodeEad ead

/-- ID_CRED as the plaintext decoders read it from `hi`: a compact key id is one byte that `int_raw` reads; a full
credential is a byte string whose head's additional information is above 1, that is, whose length is given inline
and at least 2, or in one following byte of any value. -/
def IdCredForm (hi : List UInt8) : IdCred → Prop
  | .compactKid kid => IsIntRaw kid ∧ hi = [kid]
  | .fullCredential cred =>
    ∃ hd, ShortHead cborMajorByteString cred.length hd ∧ (2 ≤ cred.length ∨ hd.length = 2) ∧ hi = hd ++ cred

/-- PLAINTEXT_3, and PLAINTEXT_2 after C_R, as the decoders read them: ID_CRED, the MAC as a byte string, then an
optional valid EAD item. -/
def PlaintextForm (s : List UInt8) (idCred : IdCred) (mac : List UInt8) (ead : Option Ead) : Prop :=
  ∃ hi hmac, IdCredForm hi idCred ∧ ShortHead cborMajorByteString mac.length hmac ∧ (∀ e ∈ ead, e.Valid) ∧
    s = hi ++ hmac ++ mac ++ encodeEad ead

/-- PLAINTEXT_2 as `decode_plaintext_2` reads it: C_R as one integer byte, then the rest of a plaintext. -/
def Plaintext2Form (s : List UInt8) (cR : UInt8) (idCred : IdCred) (mac : List UInt8) (ead : Option Ead) : Prop :=
  IsIntRaw cR ∧ ∃ r, s = cR :: r ∧ PlaintextForm r idCred mac ead

/-! ## Heads read off their initial byte -/

theorem rest_of_current {d : CBORDecoder} {b : UInt8} (h : d.current = .ok b) : ∃ r, d.rest = b :: r := by
  unfold current at h
  rw [getElem?_pos] at h
  rcases hr : d.rest with _ | ⟨c, r⟩ <;> rw [hr] at h
  · cases h
  · cases h
    exact ⟨r, rfl⟩

/-- The guards of `parse_suites_i` and of the ID_CRED branch: the additional information of a short head's initial
byte is at least `k ≤ 24` exactly when the argument is at least `k` or follows in one byte. -/
theorem le_infoOf_iff {major : UInt8} (hm : IsMajor major) {n k : Nat} (hk : k ≤ 24) {hd r : List UInt8} {b : UInt8}
    (h : ShortHead major n hd) (hp : hd <+: b :: r) : typeOf b = major ∧ (k ≤ (infoOf b).toNat ↔ k ≤ n ∨ hd.length = 2) := by
  obtain ⟨ht, ⟨hi, rfl, rfl⟩ | ⟨hi, c, -, rfl, rfl⟩⟩ := (shortHead_prefix_iff hm).1 ⟨h, hp⟩
  · exact ⟨ht, by simp⟩
  · exact ⟨ht, iff_of_true (by omega) (.inr rfl)⟩

theorem shortHead_prefix_cons {major : UInt8} {n : Nat} {hd r : List UInt8} (h : ShortHead major n hd) :
    ∃ b t, hd = b :: t ∧ hd <+: b :: (t ++ r) := by
  obtain ⟨b, t, rfl⟩ := List.exists_cons_of_ne_nil (shortHead_ne_nil h)
  exact ⟨b, t, rfl, List.prefix_append _ _⟩

/-! ## Completeness: the forms read back -/

/-- The loop of `parse_suites_i` reads unsigned integers with any short heads into `suites_i` from index `i`. -/
theorem parseSuitesLoop_of_forall₂ {ss : List UInt8} {items : List (List UInt8)}
    (h : List.Forall₂ (fun x h => ShortHead 0 x.toNat h) ss items) :
    ∀ (i : Nat) (v : BytesSuites) (pre r : List UInt8), i + ss.length ≤ suitesLen →
      ∃ v', parseSuitesLoop ss.length i v (cursor pre (items.flatten ++ r)) =
          .ok (v', cursor (pre ++ items.flatten) r) ∧
        v'.toList.take (i + ss.length) = v.toList.take i ++ ss ∧
        v'.toList.drop (i + ss.length) = v.toList.drop (i + ss.length) := by
  induction h with
  | nil => exact fun i v pre r _ => ⟨v, by simp [parseSuitesLoop], by simp, rfl⟩
  | @cons x hx xs hxs h₁ _ ih =>
    intro i v pre r hl
    have hi : i < suitesLen := by simp only [List.length_cons] at hl; omega
    obtain ⟨v', hv', ht, hd⟩ := ih (i + 1) (v.set ⟨i, hi⟩ x) (pre ++ hx) r (by simp only [List.length_cons] at hl; omega)
    refine ⟨v', ?_, ?_, ?_⟩
    · simp only [List.length_cons, parseSuitesLoop, List.flatten_cons, List.append_assoc]
      rw [tryRead_of_ok (u8_cursor h₁ pre _)]
      simp only [ok_bind, indexSet_of_lt v x hi, lift_some, hv', List.append_assoc]
    · rw [List.length_cons, ← Nat.add_assoc, Nat.add_right_comm, ht, take_succ_set, List.append_assoc]
      rfl
    · rw [List.length_cons, ← Nat.add_assoc, Nat.add_right_comm, hd, drop_set_of_lt _ _ (by omega)]

theorem parseSuitesI_of_suitesForm {hs ss : List UInt8} (h : SuitesForm hs ss) (pre r : List UInt8) :
    ∃ v, parseSuitesI (cursor pre (hs ++ r)) = .ok (v, ss.length, cursor (pre ++ hs) r) ∧
      v.toList = ss ++ List.replicate (suitesLen - ss.length) 0 := by
  rcases h with ⟨x, rfl, hx⟩ | ⟨hd, items, hh, hg, hl, hf, rfl⟩
  · obtain ⟨b, t, rfl, hp⟩ := shortHead_prefix_cons (r := r) hx
    have ht := (le_infoOf_iff isMajor_zero (k := 0) (by omega) hx hp).1
    refine ⟨(Mathlib.Vector.replicate suitesLen 0).set ⟨0, by simp⟩ x, ?_, rfl⟩
    unfold parseSuitesI
    simp only [List.cons_append, current_cursor, cborUint1ByteStart, ht, if_true]
    rw [← List.cons_append, tryRead_of_ok (u8_cursor hx pre r)]
    simp only [ok_bind, indexSet_of_lt _ x (show 0 < suitesLen by simp), lift_some, pure_eq, List.length_singleton]
  · obtain ⟨b, t, rfl, hp⟩ := shortHead_prefix_cons (r := items.flatten ++ r) hh
    obtain ⟨ht, hi⟩ := le_infoOf_iff isMajor_array (k := 2) (by omega) hh hp
    obtain ⟨v, hv, htake, hdrop⟩ := parseSuitesLoop_of_forall₂ hf 0 (Mathlib.Vector.replicate suitesLen 0)
      (pre ++ b :: t) r (by omega)
    refine ⟨v, ?_, ?_⟩
    · have hc : ¬ cborUint1ByteStart = typeOf b := by rw [ht]; decide
      unfold parseSuitesI
      simp only [List.append_assoc, List.cons_append, current_cursor, if_neg hc,
        if_pos (show cborMajorArray = typeOf b ∧ infoOf b ≥ 2 from ⟨ht.symm, UInt8.le_iff_toNat_le.2 (hi.2 hg)⟩)]
      rw [← List.cons_append, tryRead_of_ok (array_cursor hh pre _)]
      simp only [ok_bind, if_pos hl, hv, pure_eq, List.append_assoc, List.cons_append]
    · simp only [Nat.zero_add, List.take_zero, List.nil_append] at htake hdrop
      rw [← List.take_append_drop ss.length v.toList, htake, hdrop, toList_replicate, List.drop_replicate]

theorem parseIdCred_of_idCredForm {hi : List UInt8} {i : IdCred} (h : IdCredForm hi i) (pre r : List UInt8) :
    parseIdCred (cursor pre (hi ++ r)) = .ok (i, cursor (pre ++ hi) r) := by
  unfold parseIdCred
  cases i with
  | compactKid kid =>
    obtain ⟨hk, rfl⟩ := h
    have hc : ¬ (cborMajorByteString = typeOf kid ∧ infoOf kid > 1) := by
      have ht := toNat_typeOf kid
      rw [isIntRaw_iff] at hk
      rw [UInt8.eq_iff_toNat_eq, ht]
      show ¬ (64 = _ ∧ _)
      omega
    simp only [List.singleton_append, current_cursor, tryExcept_ok, ok_bind, if_neg hc]
    rw [tryRead_of_ok (intRaw_cursor hk pre r)]
    rfl
  | fullCredential cred =>
    obtain ⟨hd, hh, hg, rfl⟩ := h
    obtain ⟨b, t, rfl, hp⟩ := shortHead_prefix_cons (r := cred ++ r) hh
    obtain ⟨ht, hinfo⟩ := le_infoOf_iff isMajor_byteString (k := 2) (by omega) hh hp
    have hc : cborMajorByteString = typeOf b ∧ infoOf b > 1 :=
      ⟨ht.symm, UInt8.lt_iff_toNat_lt.2 (show 1 < (infoOf b).toNat by have := hinfo.2 hg; omega)⟩
    simp only [List.append_assoc, List.cons_append, current_cursor, tryExcept_ok, ok_bind, if_pos hc]
    rw [← List.cons_append, tryRead_of_ok (bytes_cursor hh pre r)]
    simp only [ok_bind, pure_eq, List.append_assoc, List.cons_append]

/-- After C_R, and for all of PLAINTEXT_3: ID_CRED, the MAC and the EAD item of the form read back. -/
theorem decodePlaintextTail_of_plaintextForm {macLen : Nat} {s : List UInt8} {idCred : IdCred}
    {mac : Mathlib.Vector UInt8 macLen} {ead : Option Ead} (h : PlaintextForm s idCred mac.toList ead)
    (pre : List UInt8) {len : Nat} (hl : len = (pre ++ s).length) (hm : len ≤ maxMessageSizeLen) :
    ∃ item, decodePlaintextTail macLen len (cursor pre s) = .ok (idCred, mac, item) ∧
      Option.Rel Ead.Parsed ead item := by
  obtain ⟨hi, hmac, hid, hh, he, rfl⟩ := h
  obtain ⟨item, hit, hrel⟩ := parseEadTail_encodeEad he (pre ++ hi ++ hmac ++ mac.toList)
    (by simp [hl, Nat.add_assoc]) hm
  have hb := bytesSized_cursor hh (pre ++ hi) (encodeEad ead)
  rw [mac.toList_length] at hb
  refine ⟨item, ?_, hrel⟩
  unfold decodePlaintextTail
  simp only [List.append_assoc, parseIdCred_of_idCredForm hid, ok_bind, tryRead_of_ok hb,
    copyFromSlice_of_length _ mac.toList_length, lift_some]
  simp only [← List.append_assoc, hit, ok_bind, pure_eq]
  rfl

/-- message_1 of the form reads back: its method, SUITES_I padded with zeros, G_X, C_I and EAD item. -/
theorem parseMessage1_of_message1Form {m : EdhocMessageBuffer} {s : List UInt8} (hs : m.asSlice = some s)
    {method : UInt8} {ss : List UInt8} {gX : BytesP256ElemLen} {cI : UInt8} {ead : Option Ead}
    (h : Message1Form s method ss gX cI ead) :
    ∃ suitesI item, parseMessage1 m = .ok (method, suitesI, ss.length, gX, cI, item) ∧
      suitesI.toList = ss ++ List.replicate (suitesLen - ss.length) 0 ∧ Option.Rel Ead.Parsed ead item := by
  obtain ⟨hm, hsu, hg, hmh, hsf, hgh, hc, he, rfl⟩ := h
  have hlen := EdhocMessageBuffer.length_of_asSlice hs
  obtain ⟨v, hv, hvt⟩ := parseSuitesI_of_suitesForm hsf ([] ++ hm) (hg ++ (gX.toList ++ (cI :: encodeEad ead)))
  have hgx := bytesSized_cursor (c := gX.toList) (by rw [gX.toList_length]; exact hgh) ([] ++ hm ++ hsu)
    (cI :: encodeEad ead)
  rw [gX.toList_length] at hgx
  obtain ⟨item, hi, hit⟩ := parseEadTail_encodeEad he ([] ++ hm ++ hsu ++ hg ++ gX.toList ++ [cI])
    (by rw [← hlen]; simp) (EdhocMessageBuffer.valid_of_asSlice hs)
  refine ⟨v, item, ?_, hvt, hit⟩
  unfold parseMessage1
  simp only [hs, lift_some, ok_bind, new_eq_cursor, List.append_assoc, List.singleton_append]
  rw [tryRead_of_ok (u8_cursor hmh [] _)]
  simp only [ok_bind, hv, tryRead_of_ok hgx, copyFromSlice_of_length _ gX.toList_length, lift_some,
    tryRead_of_ok (intRaw_cursor hc _ _), hi, pure_eq]
  rfl

/-- PLAINTEXT_2 of the form reads back: its C_R, ID_CRED, MAC and EAD item. -/
theorem decodePlaintext2_of_plaintext2Form {m : EdhocMessageBuffer} {s : List UInt8} (hs : m.asSlice = some s)
    {cR : UInt8} {idCred : IdCred} {mac : BytesMac2} {ead : Option Ead} (h : Plaintext2Form s cR idCred mac.toList ead) :
    ∃ item, decodePlaintext2 m = .ok (cR, idCred, mac, item) ∧ Option.Rel Ead.Parsed ead item := by
  obtain ⟨hc, r, rfl, hf⟩ := h
  obtain ⟨item, hit, hrel⟩ := decodePlaintextTail_of_plaintextForm hf ([] ++ [cR])
    (EdhocMessageBuffer.length_of_asSlice hs).symm (EdhocMessageBuffer.valid_of_asSlice hs)
  refine ⟨item, ?_, hrel⟩
  unfold decodePlaintext2
  simp only [hs, lift_some, ok_bind, new_eq_cursor]
  rw [tryRead_of_ok (intRaw_cursor hc [] _)]
  simp only [ok_bind, hit, pure_eq]

/-- PLAINTEXT_3 of the form reads back: its ID_CRED, MAC and EAD item. -/
theorem decodePlaintext3_of_plaintextForm {m : EdhocMessageBuffer} {s : List UInt8} (hs : m.asSlice = some s)
    {idCred : IdCred} {mac : BytesMac3} {ead : Option Ead} (h : PlaintextForm s idCred mac.toList ead) :
    ∃ item, decodePlaintext3 m = .ok (idCred, mac, item) ∧ Option.Rel Ead.Parsed ead item := by
  obtain ⟨item, hit, hrel⟩ := decodePlaintextTail_of_plaintextForm h []
    (EdhocMessageBuffer.length_of_asSlice hs).symm (EdhocMessageBuffer.valid_of_asSlice hs)
  refine ⟨item, ?_, hrel⟩
  unfold decodePlaintext3
  simp only [hs, lift_some, ok_bind, new_eq_cursor]
  exact hit

/-! ## Soundness: what is accepted has the form -/

theorem tryExcept_eq_ok {α : Type} {x : Except CBORError α} {a : α} (h : tryExcept x = .ok a) : x = .ok a := by
  rcases x with _ | _ <;> cases h
  rfl

/-- The loop of `parse_suites_i` reads `k` unsigned integers with short heads and writes them from index `i`. -/
theorem forall₂_of_parseSuitesLoop : ∀ (k i : Nat) (v : BytesSuites) (d : CBORDecoder) {v' : BytesSuites}
    {d' : CBORDecoder}, parseSuitesLoop k i v d = .ok (v', d') →
    ∃ ss items, ss.length = k ∧ List.Forall₂ (fun x h => ShortHead 0 x.toNat h) ss items ∧
      d.rest = items.flatten ++ d'.rest ∧ v'.toList.take (i + k) = v.toList.take i ++ ss
  | 0, i, v, d, v', d', h => by cases h; exact ⟨[], [], rfl, .nil, rfl, by simp⟩
  | k + 1, i, v, d, v', d', h => by
    obtain ⟨⟨s, d₁⟩, h₁, h⟩ := bind_eq_ok.1 h
    obtain ⟨w, h₂, h⟩ := bind_eq_ok.1 h
    obtain ⟨hi, rfl⟩ := indexSet_eq_some (lift_eq_ok.1 h₂)
    obtain ⟨hd, ⟨hsh, hp⟩, rfl⟩ := (u8_ok_iff _ _ _).1 (tryRead_eq_ok.1 h₁)
    obtain ⟨ss, items, hl, hf, hr, ht⟩ := forall₂_of_parseSuitesLoop k (i + 1) _ _ h
    refine ⟨s :: ss, hd :: items, by simp [hl], .cons hsh hf, ?_, ?_⟩
    · rw [List.flatten_cons, List.append_assoc, ← hr]
      exact rest_eq_append hp
    · rw [show i + (k + 1) = i + 1 + k by omega, ht, take_succ_set, List.append_assoc]
      rfl

theorem suitesForm_of_parseSuitesI {d d' : CBORDecoder} {v : BytesSuites} {n : Nat}
    (h : parseSuitesI d = .ok (v, n, d')) : ∃ hs, SuitesForm hs (v.toList.take n) ∧ d.rest = hs ++ d'.rest := by
  unfold parseSuitesI at h
  split at h
  · rename_i curr hcur
    obtain ⟨r, hr⟩ := rest_of_current hcur
    split_ifs at h with hu ha
    · obtain ⟨⟨s, d₁⟩, h₁, h⟩ := bind_eq_ok.1 h
      obtain ⟨w, h₂, h⟩ := bind_eq_ok.1 h
      obtain ⟨hi, rfl⟩ := indexSet_eq_some (lift_eq_ok.1 h₂)
      cases h
      obtain ⟨hd, ⟨hsh, hp⟩, rfl⟩ := (u8_ok_iff _ _ _).1 (tryRead_eq_ok.1 h₁)
      exact ⟨hd, .inl ⟨s, take_succ_set _ hi s, hsh⟩, rest_eq_append hp⟩
    · obtain ⟨⟨k, d₁⟩, h₁, h⟩ := bind_eq_ok.1 h
      dsimp only at h
      split_ifs at h with hk
      obtain ⟨⟨w, d₂⟩, h₂, h⟩ := bind_eq_ok.1 h
      cases h
      obtain ⟨hd, ⟨hsh, hp⟩, rfl⟩ := (array_ok_iff _ _ _).1 (tryRead_eq_ok.1 h₁)
      obtain ⟨ss, items, rfl, hf, hrest, ht⟩ := forall₂_of_parseSuitesLoop _ 0 _ _ h₂
      rw [Nat.zero_add, List.take_zero, List.nil_append] at ht
      obtain ⟨-, hinfo⟩ := le_infoOf_iff isMajor_array (k := 2) (by omega) hsh (hr ▸ hp)
      refine ⟨hd ++ items.flatten, ?_, by rw [rest_eq_append hp, hrest, List.append_assoc]⟩
      rw [ht]
      exact .inr ⟨hd, items, hsh, hinfo.1 (UInt8.le_iff_toNat_le.1 ha.2), hk, hf, rfl⟩
  · cases h

theorem idCredForm_of_parseIdCred {d d' : CBORDecoder} {i : IdCred} (h : parseIdCred d = .ok (i, d')) :
    ∃ hi, IdCredForm hi i ∧ d.rest = hi ++ d'.rest := by
  unfold parseIdCred at h
  obtain ⟨curr, hcur, h⟩ := bind_eq_ok.1 h
  obtain ⟨r, hr⟩ := rest_of_current (tryExcept_eq_ok hcur)
  split_ifs at h with hc
  · obtain ⟨⟨c, d₁⟩, h₁, h⟩ := bind_eq_ok.1 h
    cases h
    obtain ⟨hd, ⟨hsh, hp⟩, rfl⟩ := (bytes_ok_iff _ _ _).1 (tryRead_eq_ok.1 h₁)
    obtain ⟨-, hinfo⟩ := le_infoOf_iff isMajor_byteString (k := 2) (by omega) hsh
      (hr ▸ (List.prefix_append hd c).trans hp)
    refine ⟨hd ++ c, ⟨hd, hsh, hinfo.1 (Nat.succ_le_of_lt (UInt8.lt_iff_toNat_lt.1 hc.2)), rfl⟩, ?_⟩
    rw [rest_eq_append hp, List.length_append]
  · obtain ⟨⟨c, d₁⟩, h₁, h⟩ := bind_eq_ok.1 h
    cases h
    obtain ⟨hk, hr'⟩ := intRaw_sound (tryRead_eq_ok.1 h₁)
    exact ⟨[c], ⟨hk, rfl⟩, hr'⟩

/-- What the ID_CRED, MAC and EAD part accepts at the end of its slice has the form. -/
theorem plaintextForm_of_decodePlaintextTail {macLen : Nat} {d : CBORDecoder} {idCred : IdCred}
    {mac : Mathlib.Vector UInt8 macLen} {ead : Option EADItem}
    (h : decodePlaintextTail macLen d.buf.length d = .ok (idCred, mac, ead)) :
    ∃ e, PlaintextForm d.rest idCred mac.toList e ∧ Option.Rel Ead.Parsed e ead := by
  obtain ⟨⟨i, d₁⟩, h₁, h⟩ := bind_eq_ok.1 h
  obtain ⟨⟨c, d₂⟩, h₂, h⟩ := bind_eq_ok.1 h
  obtain ⟨w, h₃, h⟩ := bind_eq_ok.1 h
  obtain ⟨ead', h₄, h⟩ := bind_eq_ok.1 h
  cases h
  rw [← parseIdCred_buf h₁, ← (keepsBuf_bytesSized _).tryRead h₂] at h₄
  obtain ⟨e, he, hv, hp⟩ := parseEadTail_sound h₄
  obtain ⟨hi, hid, hr₁⟩ := idCredForm_of_parseIdCred h₁
  obtain ⟨-, hb⟩ := (bytesSized_ok_iff _ _ _ _).1 (tryRead_eq_ok.1 h₂)
  obtain ⟨hd, ⟨hsh, hpre⟩, rfl⟩ := (bytes_ok_iff _ _ _).1 hb
  rw [toList_of_copyFromSlice (lift_eq_ok.1 h₃)]
  refine ⟨e, ⟨hi, hd, hid, hsh, hv, ?_⟩, hp⟩
  rw [hr₁, rest_eq_append hpre, List.length_append, he]
  simp only [List.append_assoc]

/-- What `parse_message_1` accepts has the form, with the suites it returns. -/
theorem message1Form_of_parseMessage1 {m : EdhocMessageBuffer} {method : UInt8} {suitesI : BytesSuites} {n : Nat}
    {gX : BytesP256ElemLen} {cI : UInt8} {ead : Option EADItem}
    (h : parseMessage1 m = .ok (method, suitesI, n, gX, cI, ead)) :
    ∃ s e, m.asSlice = some s ∧ Message1Form s method (suitesI.toList.take n) gX cI e ∧
      Option.Rel Ead.Parsed e ead := by
  unfold parseMessage1 at h
  obtain ⟨s, hs, h⟩ := bind_eq_ok.1 h
  obtain ⟨⟨mt, d₁⟩, h₁, h⟩ := bind_eq_ok.1 h
  dsimp only at h
  rcases h₂ : parseSuitesI d₁ with ⟨v, k, d₂⟩ | _ | _ <;> rw [h₂] at h <;> try cases h
  obtain ⟨⟨g, d₃⟩, h₃, h⟩ := bind_eq_ok.1 h
  obtain ⟨w, h₄, h⟩ := bind_eq_ok.1 h
  obtain ⟨⟨c, d₄⟩, h₅, h⟩ := bind_eq_ok.1 h
  obtain ⟨ead', h₆, h⟩ := bind_eq_ok.1 h
  cases h
  have hs := lift_eq_ok.1 hs
  have hbuf : m.len = d₄.buf.length := by
    rw [keepsBuf_intRaw.tryRead h₅, (keepsBuf_bytesSized _).tryRead h₃, (parseSuitesI_ok h₂).1,
      keepsBuf_u8.tryRead h₁, ← EdhocMessageBuffer.length_of_asSlice hs]
    rfl
  rw [hbuf] at h₆
  obtain ⟨e, he, hv, hp⟩ := parseEadTail_sound h₆
  obtain ⟨hsu, hsf, hr₂⟩ := suitesForm_of_parseSuitesI h₂
  obtain ⟨hc, hr₅⟩ := intRaw_sound (tryRead_eq_ok.1 h₅)
  obtain ⟨hm, ⟨hmh, hpm⟩, rfl⟩ := (u8_ok_iff _ _ _).1 (tryRead_eq_ok.1 h₁)
  obtain ⟨hgl, hb⟩ := (bytesSized_ok_iff _ _ _ _).1 (tryRead_eq_ok.1 h₃)
  obtain ⟨hg, ⟨hgh, hpg⟩, rfl⟩ := (bytes_ok_iff _ _ _).1 hb
  refine ⟨s, e, hs, ⟨hm, hsu, hg, hmh, hsf, hgl ▸ hgh, hc, hv, ?_⟩, hp⟩
  have hs' : (new s).rest = s := List.drop_zero s
  rw [toList_of_copyFromSlice (lift_eq_ok.1 h₄), ← hs', rest_eq_append hpm, hr₂, rest_eq_append hpg,
    List.length_append, hr₅, he]
  simp only [List.append_assoc]

/-- What `decode_plaintext_2` accepts has the form. -/
theorem plaintext2Form_of_decodePlaintext2 {m : EdhocMessageBuffer} {cR : UInt8} {idCred : IdCred} {mac : BytesMac2}
    {ead : Option EADItem} (h : decodePlaintext2 m = .ok (cR, idCred, mac, ead)) :
    ∃ s e, m.asSlice = some s ∧ Plaintext2Form s cR idCred mac.toList e ∧ Option.Rel Ead.Parsed e ead := by
  unfold decodePlaintext2 at h
  obtain ⟨s, hs, h⟩ := bind_eq_ok.1 h
  obtain ⟨⟨c, d₁⟩, h₁, h⟩ := bind_eq_ok.1 h
  obtain ⟨⟨i, w, ead'⟩, h₂, h⟩ := bind_eq_ok.1 h
  cases h
  have hs := lift_eq_ok.1 hs
  rw [← EdhocMessageBuffer.length_of_asSlice hs, show s = d₁.buf from (keepsBuf_intRaw.tryRead h₁).symm] at h₂
  obtain ⟨e, hf, hp⟩ := plaintextForm_of_decodePlaintextTail h₂
  obtain ⟨hc, hr⟩ := intRaw_sound (tryRead_eq_ok.1 h₁)
  exact ⟨s, e, hs, ⟨hc, _, hr, hf⟩, hp⟩

/-- What `decode_plaintext_3` accepts has the form. -/
theorem plaintextForm_of_decodePlaintext3 {m : EdhocMessageBuffer} {idCred : IdCred} {mac : BytesMac3}
    {ead : Option EADItem} (h : decodePlaintext3 m = .ok (idCred, mac, ead)) :
    ∃ s e, m.asSlice = some s ∧ PlaintextForm s idCred mac.toList e ∧ Option.Rel Ead.Parsed e ead := by
  unfold decodePlaintext3 at h
  obtain ⟨s, hs, h⟩ := bind_eq_ok.1 h
  have hs := lift_eq_ok.1 hs
  rw [← EdhocMessageBuffer.length_of_asSlice hs] at h
  obtain ⟨e, hf, hp⟩ := plaintextForm_of_decodePlaintextTail h
  exact ⟨s, e, hs, hf, hp⟩

/-! ## Exactly the forms -/

/-- `parse_ead` returns an item exactly on the encoding of a valid EAD item: a label byte `0x00..=0x17` or
`0x20..=0x37`, then the value bytes. It never returns `Ok(None)`, and it answers every other slice that fits a
buffer after its label byte, the empty one included, with `ParsingError`. -/
theorem parseEad_iff_encode (s : List UInt8) (hs : s.length ≤ maxMessageSizeLen + 1) :
    (∀ e : Ead, e.Valid → s = e.encode → ∃ i, parseEad s = .ok (some i) ∧ e.Parsed i) ∧
    ((¬ ∃ e : Ead, e.Valid ∧ s = e.encode) → parseEad s = .err .parsingError) := by
  refine ⟨fun e he hse => ?_, fun hn => ?_⟩
  · subst hse
    rw [Ead.encode, List.length_cons] at hs
    exact parseEad_encode he (by omega)
  · refine eq_err_of_forall_ok (parseEad_noPanic hs) (errOnly_parseEad s) (fun _ h => ?_) hn
    obtain ⟨e, hv, he, -⟩ := parseEad_sound h
    exact ⟨e, hv, he⟩

/-- The critical EAD item of label 2 with the value `05 06` is parsed. -/
theorem parseEad_iff_encode_critical :
    ([0x21, 0x05, 0x06] : List UInt8).length ≤ maxMessageSizeLen + 1 ∧ (⟨2, true, [5, 6]⟩ : Ead).Valid ∧
    ∃ i, parseEad [0x21, 0x05, 0x06] = .ok (some i) ∧ (⟨2, true, [5, 6]⟩ : Ead).Parsed i := by
  have hv : (⟨2, true, [5, 6]⟩ : Ead).Valid := by decide
  exact ⟨by decide, hv, (parseEad_iff_encode _ (by decide)).1 _ hv rfl⟩

/-- `parse_message_1` returns `Ok` exactly on a message_1 of the form, with its fields and SUITES_I padded with
zeros, and answers every other buffer within its capacity with `ParsingError`. -/
theorem parseMessage1_iff_message1Form (m : EdhocMessageBuffer) (s : List UInt8) (hs : m.asSlice = some s) :
    (∀ method ss gX cI ead, Message1Form s method ss gX cI ead → ∃ suitesI item,
      parseMessage1 m = .ok (method, suitesI, ss.length, gX, cI, item) ∧
      suitesI.toList = ss ++ List.replicate (suitesLen - ss.length) 0 ∧ Option.Rel Ead.Parsed ead item) ∧
    ((¬ ∃ method ss gX cI ead, Message1Form s method ss gX cI ead) → parseMessage1 m = .err .parsingError) := by
  refine ⟨fun _ _ _ _ _ h => parseMessage1_of_message1Form hs h, fun hn => ?_⟩
  refine eq_err_of_forall_ok (parseMessage1_noPanic (EdhocMessageBuffer.valid_of_asSlice hs))
    (errOnly_parseMessage1 m) (fun _ h => ?_) hn
  obtain ⟨s', e, hs', hf, -⟩ := message1Form_of_parseMessage1 h
  cases hs.symm.trans hs'
  exact ⟨_, _, _, _, _, hf⟩

set_option maxRecDepth 10000 in
/-- A message_1 with the method `3` in a head with a one-byte argument (`18 03`), the suites `6, 2` in an array, and a
critical EAD item with a value has the form and is parsed into its fields. -/
theorem parseMessage1_iff_message1Form_oneByteMethod :
    (⟨⟨[0x18, 0x03, 0x82, 0x06, 0x02, 0x58, 0x20] ++ List.replicate 32 0 ++ [0x37, 0x21, 0x05, 0x06] ++
        List.replicate 149 0, by decide⟩, 43⟩ : EdhocMessageBuffer).asSlice =
      some ([0x18, 0x03, 0x82, 0x06, 0x02, 0x58, 0x20] ++ List.replicate 32 0 ++ [0x37, 0x21, 0x05, 0x06]) ∧
    Message1Form ([0x18, 0x03, 0x82, 0x06, 0x02, 0x58, 0x20] ++ List.replicate 32 0 ++ [0x37, 0x21, 0x05, 0x06])
      3 [6, 2] (Mathlib.Vector.replicate _ 0) 0x37 (some ⟨2, true, [5, 6]⟩) ∧
    ∃ suitesI item,
      parseMessage1 ⟨⟨[0x18, 0x03, 0x82, 0x06, 0x02, 0x58, 0x20] ++ List.replicate 32 0 ++
        [0x37, 0x21, 0x05, 0x06] ++ List.replicate 149 0, by decide⟩, 43⟩ =
        .ok (3, suitesI, 2, Mathlib.Vector.replicate _ 0, 0x37, item) ∧
      suitesI.toList = [6, 2] ++ List.replicate (suitesLen - 2) 0 ∧
      Option.Rel Ead.Parsed (some ⟨2, true, [5, 6]⟩) item := by
  have hf : Message1Form ([0x18, 0x03, 0x82, 0x06, 0x02, 0x58, 0x20] ++ List.replicate 32 0 ++
      [0x37, 0x21, 0x05, 0x06]) 3 [6, 2] (Mathlib.Vector.replicate _ 0) 0x37 (some ⟨2, true, [5, 6]⟩) :=
    ⟨[0x18, 0x03], [0x82, 0x06, 0x02], [0x58, 0x20], .inr ⟨by decide, rfl⟩,
      .inr ⟨[0x82], [[0x06], [0x02]], .inl ⟨by decide, rfl⟩, .inl (by decide), by decide,
        .cons (.inl ⟨by decide, rfl⟩) (.cons (.inl ⟨by decide, rfl⟩) .nil), rfl⟩,
      .inr ⟨by decide, rfl⟩, by decide, fun _ h => by cases h; decide, rfl⟩
  exact ⟨rfl, hf, (parseMessage1_iff_message1Form _ _ (by rfl)).1 _ _ _ _ _ hf⟩

/-- `decode_plaintext_2` returns `Ok` exactly on a PLAINTEXT_2 of the form, with its fields, and answers every other
buffer within its capacity with `ParsingError`. -/
theorem decodePlaintext2_iff_plaintext2Form (m : EdhocMessageBuffer) (s : List UInt8) (hs : m.asSlice = some s) :
    (∀ cR idCred (mac : BytesMac2) ead, Plaintext2Form s cR idCred mac.toList ead → ∃ item,
      decodePlaintext2 m = .ok (cR, idCred, mac, item) ∧ Option.Rel Ead.Parsed ead item) ∧
    ((¬ ∃ (cR : UInt8) (idCred : IdCred) (mac : BytesMac2) (ead : Option Ead),
        Plaintext2Form s cR idCred mac.toList ead) →
      decodePlaintext2 m = .err .parsingError) := by
  refine ⟨fun _ _ _ _ h => decodePlaintext2_of_plaintext2Form hs h, fun hn => ?_⟩
  refine eq_err_of_forall_ok (decodePlaintext2_noPanic (EdhocMessageBuffer.valid_of_asSlice hs))
    (errOnly_decodePlaintext2 m) (fun _ h => ?_) hn
  obtain ⟨s', e, hs', hf, -⟩ := plaintext2Form_of_decodePlaintext2 h
  cases hs.symm.trans hs'
  exact ⟨_, _, _, _, hf⟩

set_option maxRecDepth 10000 in
/-- A PLAINTEXT_2 whose two-byte credential has a head with a one-byte length (`58 02`), followed by the MAC and a
non-critical EAD item without a value, has the form and is parsed into its fields. -/
theorem decodePlaintext2_iff_plaintext2Form_oneByteLength :
    (⟨⟨[0x00, 0x58, 0x02, 0xA1, 0x04, 0x48] ++ List.replicate 8 1 ++ [0x01] ++ List.replicate 177 0, by decide⟩,
        15⟩ : EdhocMessageBuffer).asSlice =
      some ([0x00, 0x58, 0x02, 0xA1, 0x04, 0x48] ++ List.replicate 8 1 ++ [0x01]) ∧
    Plaintext2Form ([0x00, 0x58, 0x02, 0xA1, 0x04, 0x48] ++ List.replicate 8 1 ++ [0x01]) 0
      (.fullCredential [0xA1, 0x04]) (Mathlib.Vector.replicate macLength2 1).toList (some ⟨1, false, []⟩) ∧
    ∃ item,
      decodePlaintext2 ⟨⟨[0x00, 0x58, 0x02, 0xA1, 0x04, 0x48] ++ List.replicate 8 1 ++ [0x01] ++
        List.replicate 177 0, by decide⟩, 15⟩ =
        .ok (0, .fullCredential [0xA1, 0x04], Mathlib.Vector.replicate macLength2 1, item) ∧
      Option.Rel Ead.Parsed (some ⟨1, false, []⟩) item := by
  have hf : Plaintext2Form ([0x00, 0x58, 0x02, 0xA1, 0x04, 0x48] ++ List.replicate 8 1 ++ [0x01]) 0
      (.fullCredential [0xA1, 0x04]) (Mathlib.Vector.replicate macLength2 1).toList (some ⟨1, false, []⟩) :=
    ⟨by decide, _, rfl, [0x58, 0x02, 0xA1, 0x04], [0x48],
      ⟨[0x58, 0x02], .inr ⟨by decide, rfl⟩, .inl (by decide), rfl⟩, .inl ⟨by decide, rfl⟩,
      fun _ h => by cases h; decide, rfl⟩
  exact ⟨rfl, hf, (decodePlaintext2_iff_plaintext2Form _ _ (by rfl)).1 _ _ _ _ hf⟩

/-- `decode_plaintext_3` returns `Ok` exactly on a PLAINTEXT_3 of the form, with its fields, and answers every other
buffer within its capacity with `ParsingError`. -/
theorem decodePlaintext3_iff_plaintextForm (m : EdhocMessageBuffer) (s : List UInt8) (hs : m.asSlice = some s) :
    (∀ idCred (mac : BytesMac3) ead, PlaintextForm s idCred mac.toList ead → ∃ item,
      decodePlaintext3 m = .ok (idCred, mac, item) ∧ Option.Rel Ead.Parsed ead item) ∧
    ((¬ ∃ (idCred : IdCred) (mac : BytesMac3) (ead : Option Ead), PlaintextForm s idCred mac.toList ead) →
      decodePlaintext3 m = .err .parsingError) := by
  refine ⟨fun _ _ _ h => decodePlaintext3_of_plaintextForm hs h, fun hn => ?_⟩
  refine eq_err_of_forall_ok (decodePlaintext3_noPanic (EdhocMessageBuffer.valid_of_asSlice hs))
    (errOnly_decodePlaintext3 m) (fun _ h => ?_) hn
  obtain ⟨s', e, hs', hf, -⟩ := plaintextForm_of_decodePlaintext3 h
  cases hs.symm.trans hs'
  exact ⟨_, _, _, hf⟩

set_option maxRecDepth 10000 in
/-- A PLAINTEXT_3 with the negative compact key id `0x25`, the MAC and the critical EAD item of label 1 with the
value `09` has the form and is parsed into its fields. -/
theorem decodePlaintext3_iff_plaintextForm_negativeKid :
    (⟨⟨[0x25, 0x48] ++ List.replicate 8 1 ++ [0x20, 0x09] ++ List.replicate 180 0, by decide⟩, 12⟩ :
        EdhocMessageBuffer).asSlice = some ([0x25, 0x48] ++ List.replicate 8 1 ++ [0x20, 0x09]) ∧
    PlaintextForm ([0x25, 0x48] ++ List.replicate 8 1 ++ [0x20, 0x09]) (.compactKid 0x25)
      (Mathlib.Vector.replicate macLength3 1).toList (some ⟨1, true, [9]⟩) ∧
    ∃ item,
      decodePlaintext3 ⟨⟨[0x25, 0x48] ++ List.replicate 8 1 ++ [0x20, 0x09] ++ List.replicate 180 0, by decide⟩,
        12⟩ = .ok (.compactKid 0x25, Mathlib.Vector.replicate macLength3 1, item) ∧
      Option.Rel Ead.Parsed (some ⟨1, true, [9]⟩) item := by
  have hf : PlaintextForm ([0x25, 0x48] ++ List.replicate 8 1 ++ [0x20, 0x09]) (.compactKid 0x25)
      (Mathlib.Vector.replicate macLength3 1).toList (some ⟨1, true, [9]⟩) :=
    ⟨[0x25], [0x48], ⟨by decide, rfl⟩, .inl ⟨by decide, rfl⟩, fun _ h => by cases h; decide, rfl⟩
  exact ⟨rfl, hf, (decodePlaintext3_iff_plaintextForm _ _ (by rfl)).1 _ _ _ hf⟩

end EdhocParser

end Lakers
