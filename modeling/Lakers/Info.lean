import Lakers.Cbor.Reads

/-!
# The `info` input of the key derivation

`encode_info` of `lakers-shared` writes the `info` of EDHOC-KDF, the CBOR sequence `label, bstr(context), length`,
into an array of `MAX_INFO_LEN` bytes and returns how many bytes it wrote. It writes the label byte, then the
context's byte string (`writeContext`), then the length (`writeLength`); each part has its head inline below 24
and in one following byte otherwise, and `length as u8` keeps the low byte of the length.

* `encodeInfo_eq`: for a context that fits its buffer, `encode_info` never panics and writes `infoBytes`.
* `decodeSeq_infoBytes`: for a label up to 23 and a length up to 255, these bytes are the CBOR sequence of the
  three items, as RFC 8949 reads them; `readInfo_infoBytes`: the decoder's `u8`, `bytes` and `u8` read them back.
* `infoBytes_injective`: distinct triples give distinct bytes, for every length up to 256.
-/

namespace Lakers

namespace Helpers

open Cbor CBORDecoder

/-! ## `encode_info` -/

/-- The first `if` of `encode_info`: the head of the context's byte string from index 1, then its content; and the
number of bytes written so far. -/
def writeContext (info : BytesMaxInfoBuffer) (context : BytesMaxContextBuffer) (contextLen : Nat) :
    Option (BytesMaxInfoBuffer × Nat) :=
  if contextLen < 24 then do
    let info ← indexSet info 1 (UInt8.ofNat contextLen ||| cborMajorByteString)
    let info ← copyWithin info 2 (← sliceTo context contextLen)
    pure (info, 2 + contextLen)
  else do
    let info ← indexSet info 1 cborByteString
    let info ← indexSet info 2 (UInt8.ofNat contextLen)
    let info ← copyWithin info 3 (← sliceTo context contextLen)
    pure (info, 3 + contextLen)

/-- The second `if` of `encode_info`: `length as u8` at `infoLen`, after `CBOR_UINT_1BYTE` unless below 24. -/
def writeLength (info : BytesMaxInfoBuffer) (infoLen length : Nat) : Option (BytesMaxInfoBuffer × Nat) :=
  if length < 24 then do
    let info ← indexSet info infoLen (UInt8.ofNat length)
    pure (info, infoLen + 1)
  else do
    let info ← indexSet info infoLen cborUint1Byte
    let info ← indexSet info (infoLen + 1) (UInt8.ofNat length)
    pure (info, infoLen + 2)

/-- `encode_info`: the label byte at index 0, then the context and the length. -/
def encodeInfo (label : UInt8) (context : BytesMaxContextBuffer) (contextLen length : Nat) :
    Option (BytesMaxInfoBuffer × Nat) := do
  let info ← indexSet (Mathlib.Vector.replicate maxInfoLen 0) 0 label
  let (info, infoLen) ← writeContext info context contextLen
  writeLength info infoLen length

/-! ## What is written -/

/-- The array `v` holds `p` at its front. -/
def HoldsPrefix {n : Nat} (v : Mathlib.Vector UInt8 n) (p : List UInt8) : Prop := v.toList.take p.length = p

section HoldsPrefix

variable {n : Nat} {v : Mathlib.Vector UInt8 n} {p : List UInt8}

theorem holdsPrefix_nil (v : Mathlib.Vector UInt8 n) : HoldsPrefix v [] := rfl

theorem indexSet_holdsPrefix (h : HoldsPrefix v p) {i : Nat} (hi : p.length = i) (hn : i < n) (a : UInt8) :
    ∃ w, indexSet v i a = some w ∧ HoldsPrefix w (p ++ [a]) := by
  subst hi
  refine ⟨_, indexSet_of_lt v a hn, ?_⟩
  unfold HoldsPrefix at *
  rw [List.length_append, List.length_singleton, take_succ_set, h]

theorem copyWithin_holdsPrefix (h : HoldsPrefix v p) {i : Nat} (hi : p.length = i) (src : List UInt8)
    (hn : i + src.length ≤ n) : ∃ w, copyWithin v i src = some w ∧ HoldsPrefix w (p ++ src) := by
  subst hi
  refine ⟨_, dif_pos hn, ?_⟩
  unfold HoldsPrefix at *
  rw [List.length_append, take_writeAt, h]

end HoldsPrefix

/-- The bytes of `length as u8` with its head: inline below 24, after `0x18` otherwise. -/
def lengthBytes (length : Nat) : List UInt8 :=
  if length < 24 then [UInt8.ofNat length] else [cborUint1Byte, UInt8.ofNat length]

/-- What `encode_info` writes: the label byte, the context as a byte string, and the length. -/
def infoBytes (label : UInt8) (context : BytesMaxContextBuffer) (contextLen length : Nat) : List UInt8 :=
  label :: (shortHead cborMajorByteString contextLen ++ context.toList.take contextLen ++ lengthBytes length)

theorem or_byteString {k : Nat} (h : k < 24) :
    UInt8.ofNat k ||| cborMajorByteString = cborMajorByteString + UInt8.ofNat k := by
  have : ∀ k < 24, UInt8.ofNat k ||| cborMajorByteString = cborMajorByteString + UInt8.ofNat k := by decide
  exact this k h

theorem writeContext_spec {info : BytesMaxInfoBuffer} {label : UInt8} (h : HoldsPrefix info [label])
    (context : BytesMaxContextBuffer) {contextLen : Nat} (hc : contextLen ≤ maxKdfContextLen) :
    ∃ w, writeContext info context contextLen =
        some (w, (label :: (shortHead cborMajorByteString contextLen ++ context.toList.take contextLen)).length) ∧
      HoldsPrefix w (label :: (shortHead cborMajorByteString contextLen ++ context.toList.take contextLen)) := by
  have hs : sliceTo context contextLen = some (context.toList.take contextLen) := if_pos hc
  have hl : (context.toList.take contextLen).length = contextLen := by
    simp only [List.length_take, Mathlib.Vector.toList_length, maxKdfContextLen_eq] at hc ⊢; omega
  simp only [maxKdfContextLen_eq] at hc
  unfold writeContext shortHead
  split_ifs with h24
  · obtain ⟨w₁, h₁, p₁⟩ := indexSet_holdsPrefix h (show [label].length = 1 from rfl) (by decide)
      (UInt8.ofNat contextLen ||| cborMajorByteString)
    obtain ⟨w₂, h₂, p₂⟩ := copyWithin_holdsPrefix p₁ (show (_ ++ [_]).length = 2 from rfl)
      (context.toList.take contextLen) (by simp only [maxInfoLen_eq, hl]; omega)
    refine ⟨w₂, ?_, by simpa [or_byteString h24] using p₂⟩
    simp only [h₁, hs, h₂, Option.bind_eq_bind, Option.some_bind, Option.pure_def, Option.some.injEq,
      Prod.mk.injEq, true_and, List.length_cons, List.length_append, hl, List.length_singleton, List.length_nil]
    omega
  · obtain ⟨w₁, h₁, p₁⟩ := indexSet_holdsPrefix h (show [label].length = 1 from rfl) (by decide) cborByteString
    obtain ⟨w₂, h₂, p₂⟩ := indexSet_holdsPrefix p₁ (show (_ ++ [_]).length = 2 from rfl) (by decide)
      (UInt8.ofNat contextLen)
    obtain ⟨w₃, h₃, p₃⟩ := copyWithin_holdsPrefix p₂ (show (_ ++ [_] ++ [_]).length = 3 from rfl)
      (context.toList.take contextLen) (by simp only [maxInfoLen_eq, hl]; omega)
    refine ⟨w₃, ?_, by simpa using p₃⟩
    simp only [h₁, h₂, hs, h₃, Option.bind_eq_bind, Option.some_bind, Option.pure_def, Option.some.injEq,
      Prod.mk.injEq, true_and, List.length_cons, List.length_append, hl, List.length_nil]
    omega

theorem writeLength_spec {info : BytesMaxInfoBuffer} {p : List UInt8} (h : HoldsPrefix info p) {infoLen : Nat}
    (hp : p.length = infoLen) (hn : infoLen + 2 ≤ maxInfoLen) (length : Nat) :
    ∃ w, writeLength info infoLen length = some (w, (p ++ lengthBytes length).length) ∧
      HoldsPrefix w (p ++ lengthBytes length) := by
  unfold writeLength lengthBytes
  split_ifs
  · obtain ⟨w₁, h₁, p₁⟩ := indexSet_holdsPrefix h hp (by omega) (UInt8.ofNat length)
    exact ⟨w₁, by simp [h₁, hp], p₁⟩
  · obtain ⟨w₁, h₁, p₁⟩ := indexSet_holdsPrefix h hp (by omega) cborUint1Byte
    obtain ⟨w₂, h₂, p₂⟩ := indexSet_holdsPrefix p₁ (show (p ++ [_]).length = infoLen + 1 by simp [hp]) (by omega)
      (UInt8.ofNat length)
    exact ⟨w₂, by simp [h₁, h₂, hp], by simpa using p₂⟩

/-- For a context that fits its buffer, `encode_info` never panics, and returns an array holding `infoBytes` at its
front and the length of those bytes. -/
theorem encodeInfo_eq (label : UInt8) (context : BytesMaxContextBuffer) {contextLen : Nat}
    (hc : contextLen ≤ maxKdfContextLen) (length : Nat) :
    ∃ info, encodeInfo label context contextLen length =
        some (info, (infoBytes label context contextLen length).length) ∧
      HoldsPrefix info (infoBytes label context contextLen length) := by
  obtain ⟨w₁, h₁, p₁⟩ := indexSet_holdsPrefix (holdsPrefix_nil (Mathlib.Vector.replicate maxInfoLen 0))
    (show ([] : List UInt8).length = 0 from rfl) (by decide) label
  obtain ⟨w₂, h₂, p₂⟩ := writeContext_spec p₁ context hc
  have hlen : (label :: (shortHead cborMajorByteString contextLen ++ context.toList.take contextLen)).length + 2 ≤
      maxInfoLen := by
    simp only [maxKdfContextLen_eq] at hc
    simp only [List.length_cons, List.length_append, List.length_take, Mathlib.Vector.toList_length, shortHead,
      maxInfoLen_eq]
    split_ifs <;> simp <;> omega
  obtain ⟨w₃, h₃, p₃⟩ := writeLength_spec p₂ rfl hlen length
  refine ⟨w₃, ?_, by simpa [infoBytes] using p₃⟩
  simp only [encodeInfo, h₁, Option.bind_eq_bind, Option.some_bind, h₂, h₃, infoBytes, List.cons_append,
    List.append_assoc]

/-! ## The CBOR sequence -/

theorem singleton_shortHead {v : UInt8} (h : v.toNat ≤ 23) : [v] = shortHead 0 v.toNat := by
  rw [shortHead, if_pos (by omega), UInt8.zero_add, ofNat_toNat]

theorem lengthBytes_shortHead (length : Nat) : lengthBytes length = shortHead 0 length := by
  unfold lengthBytes shortHead
  split_ifs <;> simp [cborUint1Byte]

/-- For a label up to 23, `encode_info` writes the label as an unsigned integer, then the context's byte string,
then the length's head; that head is `uint(length)` while the length is below 256. -/
theorem infoBytes_eq {label : UInt8} (hl : label.toNat ≤ 23) (context : BytesMaxContextBuffer) (contextLen
    length : Nat) :
    infoBytes label context contextLen length = shortHead 0 label.toNat ++
      (shortHead cborMajorByteString contextLen ++ (context.toList.take contextLen ++ shortHead 0 length)) := by
  rw [infoBytes, lengthBytes_shortHead, ← singleton_shortHead hl, List.append_assoc]
  rfl

theorem length_take_context (context : BytesMaxContextBuffer) {contextLen : Nat} (hc : contextLen ≤ maxKdfContextLen) :
    (context.toList.take contextLen).length = contextLen := by
  simp only [maxKdfContextLen_eq] at hc
  simp [hc]

/-- RFC 8949 reads what `encode_info` writes as exactly the three items, and nothing after them. -/
theorem decodeSeq_infoBytes {label : UInt8} (hl : label.toNat ≤ 23) (context : BytesMaxContextBuffer)
    {contextLen : Nat} (hc : contextLen ≤ maxKdfContextLen) {length : Nat} (hn : length < 256) :
    decodeSeq (infoBytes label context contextLen length) =
      some [.uint label.toNat, .bstr (context.toList.take contextLen), .uint length] := by
  have hlc := length_take_context context hc
  have h₁ := shortHead_shortHead 0 (show label.toNat < 256 by omega)
  have h₂ := shortHead_shortHead cborMajorByteString (show contextLen < 256 by
    simp only [maxKdfContextLen_eq] at hc; omega)
  have h₃ := shortHead_shortHead 0 hn
  have hb : item (shortHead cborMajorByteString contextLen ++ context.toList.take contextLen ++
      shortHead 0 length) = some (.bstr (context.toList.take contextLen), shortHead 0 length) := by
    have := item_bstr (hlc ▸ h₂) (shortHead 0 length)
    rwa [hlc] at this
  have hk : (infoBytes label context contextLen length).length =
      (infoBytes label context contextLen length).length - 3 + 3 := by
    rw [infoBytes_eq hl context contextLen length]
    have := List.length_pos.2 (shortHead_ne_nil h₁)
    have := List.length_pos.2 (shortHead_ne_nil h₂)
    have := List.length_pos.2 (shortHead_ne_nil h₃)
    simp only [List.length_append]
    omega
  rw [decodeSeq, hk, infoBytes_eq hl context contextLen length,
    seqItems_succ (by simp [shortHead_ne_nil h₁]) (item_uint h₁ _),
    seqItems_succ (by simp [shortHead_ne_nil h₂]) (by rw [← List.append_assoc]; exact hb),
    ← List.append_nil (shortHead 0 length), seqItems_succ (by simp [shortHead_ne_nil h₃]) (item_uint h₃ _)]
  simp

/-- Reading `info` back with the decoder's reads, as a peer would: `u8`, `bytes`, `u8`. -/
def readInfo : Read (UInt8 × List UInt8 × UInt8) := do
  let label ← u8
  let context ← bytes
  let length ← u8
  pure (label, context, length)

/-- The decoder's `u8`, `bytes` and `u8` read what `encode_info` writes back to the end. -/
theorem readInfo_infoBytes {label : UInt8} (hl : label.toNat ≤ 23) (context : BytesMaxContextBuffer)
    {contextLen : Nat} (hc : contextLen ≤ maxKdfContextLen) {length : Nat} (hn : length < 256) :
    readInfo (new (infoBytes label context contextLen length)) =
      .ok (label, context.toList.take contextLen, UInt8.ofNat length)
        (cursor (infoBytes label context contextLen length) []) := by
  have hlc := length_take_context context hc
  have h₂ : ShortHead cborMajorByteString (context.toList.take contextLen).length
      (shortHead cborMajorByteString contextLen) := by
    rw [hlc]; exact shortHead_shortHead _ (by simp only [maxKdfContextLen_eq] at hc; omega)
  have h₃ : ShortHead 0 (UInt8.ofNat length).toNat (shortHead 0 length) := by
    rw [UInt8.toNat_ofNat', Nat.mod_eq_of_lt hn]; exact shortHead_shortHead 0 hn
  have hend : (shortHead 0 length) = shortHead 0 length ++ [] := (List.append_nil _).symm
  unfold readInfo
  rw [new_eq_cursor, infoBytes_eq hl context contextLen length,
    bind_ok (u8_cursor (shortHead_shortHead 0 (show label.toNat < 256 by omega)) [] _),
    bind_ok (bytes_cursor h₂ _ _), hend, bind_ok (u8_cursor h₃ _ _)]
  simp only [pure_apply, List.nil_append, List.append_nil, List.append_assoc]

/-! ## Distinct triples, distinct `info` -/

theorem lengthBytes_injective {a b : Nat} (ha : a ≤ maxBufferLen) (hb : b ≤ maxBufferLen)
    (h : lengthBytes a = lengthBytes b) : a = b := by
  simp only [maxBufferLen_eq] at ha hb
  unfold lengthBytes at h
  split_ifs at h <;> simp [cborUint1Byte, UInt8.eq_iff_toNat_eq] at h <;> omega

/-- `encode_info` writes distinct bytes for distinct labels, contexts or lengths, for every length up to
`MAX_BUFFER_LEN`: the label is the first byte, the byte string's head fixes how long the context is, and the
length's bytes differ for every length up to 256. -/
theorem infoBytes_injective {label label' : UInt8} {context context' : BytesMaxContextBuffer}
    {contextLen contextLen' length length' : Nat} (hc : contextLen ≤ maxKdfContextLen)
    (hc' : contextLen' ≤ maxKdfContextLen) (hn : length ≤ maxBufferLen) (hn' : length' ≤ maxBufferLen)
    (h : infoBytes label context contextLen length = infoBytes label' context' contextLen' length') :
    label = label' ∧ context.toList.take contextLen = context'.toList.take contextLen' ∧ length = length' := by
  simp only [maxKdfContextLen_eq] at hc hc'
  obtain ⟨rfl, ht⟩ := List.cons_eq_cons.1 h
  have hh := congrArg head ht
  rw [List.append_assoc, List.append_assoc,
    head_shortHead isMajor_byteString (shortHead_shortHead _ (show contextLen < 256 by omega)),
    head_shortHead isMajor_byteString (shortHead_shortHead _ (show contextLen' < 256 by omega))] at hh
  simp only [Option.some.injEq, Prod.mk.injEq, true_and] at hh
  obtain ⟨rfl, hh⟩ := hh
  obtain ⟨hctx, hlen⟩ := List.append_inj hh (by simp only [List.length_take, Mathlib.Vector.toList_length])
  exact ⟨rfl, hctx, lengthBytes_injective hn hn' hlen⟩

/-! ## `encode_info` and the CBOR sequence -/

/-- For a label up to 23, a context that fits its buffer and a length up to `MAX_BUFFER_LEN`, `encode_info` never
panics; while the length is below 256 it writes exactly the CBOR sequence `uint(label)`, `bstr(context)`,
`uint(length)`, which RFC 8949 and the decoder's `u8`, `bytes` and `u8` read back to the end; and any other triple
gives other bytes. -/
theorem encodeInfo_spec (label : UInt8) (context : BytesMaxContextBuffer) (contextLen length : Nat)
    (hl : label.toNat ≤ 23) (hc : contextLen ≤ maxKdfContextLen) (hn : length ≤ maxBufferLen) :
    ∃ info infoLen, encodeInfo label context contextLen length = some (info, infoLen) ∧
      (length < 256 →
        decodeSeq (info.toList.take infoLen) =
          some [.uint label.toNat, .bstr (context.toList.take contextLen), .uint length] ∧
        ∃ d, readInfo (new (info.toList.take infoLen)) =
          .ok (label, context.toList.take contextLen, UInt8.ofNat length) d ∧ d.finished = true) ∧
      ∀ label' context' contextLen' length' info' infoLen', contextLen' ≤ maxKdfContextLen →
        length' ≤ maxBufferLen → encodeInfo label' context' contextLen' length' = some (info', infoLen') →
        info'.toList.take infoLen' = info.toList.take infoLen →
        label' = label ∧ context'.toList.take contextLen' = context.toList.take contextLen ∧ length' = length := by
  obtain ⟨info, he, hp⟩ := encodeInfo_eq label context hc length
  unfold HoldsPrefix at hp
  refine ⟨info, _, he, fun h256 => ?_, fun label' context' contextLen' length' info' infoLen' hc' hn' he' heq => ?_⟩
  · rw [hp]
    exact ⟨decodeSeq_infoBytes hl context hc h256, _, readInfo_infoBytes hl context hc h256, by simp⟩
  · obtain ⟨info'', he'', hp''⟩ := encodeInfo_eq label' context' hc' length'
    unfold HoldsPrefix at hp''
    rw [he'', Option.some.injEq, Prod.mk.injEq] at he'
    obtain ⟨rfl, rfl⟩ := he'
    rw [hp'', hp] at heq
    exact infoBytes_injective hc' hc hn' hn heq

theorem encodeInfo_spec_salt : (1 : UInt8).toNat ≤ 23 ∧ 32 ≤ maxKdfContextLen ∧ 32 ≤ maxBufferLen ∧
    ∃ info infoLen, encodeInfo 1 (Mathlib.Vector.replicate _ 7) 32 32 = some (info, infoLen) ∧
      (32 < 256 →
        decodeSeq (info.toList.take infoLen) =
          some [.uint (1 : UInt8).toNat, .bstr ((Mathlib.Vector.replicate maxKdfContextLen 7).toList.take 32),
            .uint 32] ∧
        ∃ d, readInfo (new (info.toList.take infoLen)) =
          .ok (1, (Mathlib.Vector.replicate maxKdfContextLen 7).toList.take 32, UInt8.ofNat 32) d ∧
          d.finished = true) ∧
      ∀ label' context' contextLen' length' info' infoLen', contextLen' ≤ maxKdfContextLen →
        length' ≤ maxBufferLen → encodeInfo label' context' contextLen' length' = some (info', infoLen') →
        info'.toList.take infoLen' = info.toList.take infoLen →
        label' = 1 ∧ context'.toList.take contextLen' = (Mathlib.Vector.replicate maxKdfContextLen 7).toList.take 32 ∧
          length' = 32 :=
  ⟨by decide, by decide, by decide, encodeInfo_spec _ _ _ _ (by decide) (by decide) (by decide)⟩

/-- At `length = MAX_BUFFER_LEN`, `length as u8` is 0: `encode_info` ends the sequence with `18 00`, which RFC 8949
reads as the unsigned integer 0, not 256. -/
theorem encodeInfo_maxBufferLen :
    ¬ ∀ (label : UInt8) (context : BytesMaxContextBuffer) (contextLen length : Nat), label.toNat ≤ 23 →
      contextLen ≤ maxKdfContextLen → length ≤ maxBufferLen → ∃ info infoLen,
        encodeInfo label context contextLen length = some (info, infoLen) ∧
        decodeSeq (info.toList.take infoLen) =
          some [.uint label.toNat, .bstr (context.toList.take contextLen), .uint length] := by
  intro h
  obtain ⟨info, n, he, hd⟩ := h 0 (Mathlib.Vector.replicate _ 0) 0 maxBufferLen (by decide) (by decide) le_rfl
  obtain ⟨info₀, he₀, hp₀⟩ := encodeInfo_eq 0 (Mathlib.Vector.replicate _ 0) (Nat.zero_le _) maxBufferLen
  unfold HoldsPrefix at hp₀
  rw [he₀, Option.some.injEq, Prod.mk.injEq] at he
  obtain ⟨rfl, rfl⟩ := he
  rw [hp₀] at hd
  exact absurd hd (by decide)

end Helpers

end Lakers
