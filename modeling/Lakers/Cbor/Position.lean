import Lakers.Cbor.Reads

/-!
# The position of the decoder

Every call on `CBORDecoder` moves the position forward over bytes that remain, whether it returns `Ok` or `Err`: the
decoder after it is the one before `Forward` (`movesForward_u8`, …, `forward_i8`). The reads are built from `read`,
`read_slice` and `>>=`, and `Forward` composes (`Forward.trans`, `MovesForward.bind`), so each read's lemma is a
composition of the primitives'. `i8` is not built so, and `i8_cases` says once where it leaves the decoder.

* `failed_reads_advance`: a read that returns `Err` keeps the bytes it read before failing. That is the initial
  byte for `u8`, `i8`, `int_raw` and `array`, and at most the head for `str` and `bytes` (`headLength`). For
  `bytes_sized` it may also be a whole byte string of the wrong length. The position stays where it was only when no
  byte remains (`u8_fails_past_byte`).
* `reachable_inv` and `Reachable.step`: over any sequence of calls on `CBORDecoder::new(buf)` (`run`), the slice
  stays `buf`, the position never decreases and never passes `buf.len()`, so `remaining_buffer` never fails.
-/

namespace Lakers

namespace CBORDecoder

open Cbor

/-! ## Moving forward -/

/-- `d'` is `d` moved forward over some of the bytes that remain. -/
def Forward (d d' : CBORDecoder) : Prop := ∃ k ≤ d.rest.length, d' = d.advance k

theorem forward_advance {d : CBORDecoder} {k : Nat} (h : k ≤ d.rest.length) : Forward d (d.advance k) := ⟨k, h, rfl⟩

theorem Forward.refl (d : CBORDecoder) : Forward d d := ⟨0, Nat.zero_le _, rfl⟩

theorem Forward.trans {d₁ d₂ d₃ : CBORDecoder} (h₁ : Forward d₁ d₂) (h₂ : Forward d₂ d₃) : Forward d₁ d₃ := by
  obtain ⟨k₁, hk₁, rfl⟩ := h₁
  obtain ⟨k₂, hk₂, rfl⟩ := h₂
  rw [rest_advance, List.length_drop] at hk₂
  exact ⟨k₁ + k₂, by omega, advance_advance _ _ _⟩

theorem Forward.buf_eq {d d' : CBORDecoder} (h : Forward d d') : d'.buf = d.buf := by
  obtain ⟨k, -, rfl⟩ := h
  rfl

theorem Forward.pos_le {d d' : CBORDecoder} (h : Forward d d') : d.pos ≤ d'.pos := by
  obtain ⟨k, -, rfl⟩ := h
  exact Nat.le_add_right _ _

/-- A decoder within its slice stays within it. -/
theorem Forward.pos_le_length {d d' : CBORDecoder} (h : Forward d d') (hd : d.pos ≤ d.buf.length) :
    d'.pos ≤ d.buf.length := by
  obtain ⟨k, hk, rfl⟩ := h
  rw [rest_length] at hk
  simp only [advance_pos]
  omega

/-- The decoder after a read, whether it returned `Ok` or `Err`. -/
def after {α : Type} : EStateM.Result CBORError CBORDecoder α → CBORDecoder
  | .ok _ d => d
  | .error _ d => d

@[simp] theorem after_ok {α : Type} (a : α) (d : CBORDecoder) : after (.ok a d) = d := rfl
@[simp] theorem after_error {α : Type} (e : CBORError) (d : CBORDecoder) :
    after (.error e d : EStateM.Result _ _ α) = d := rfl

/-- A read that moves the decoder forward, whatever it returns. -/
def MovesForward {α : Type} (x : Read α) : Prop := ∀ d, Forward d (after (x d))

section MovesForward

variable {α β : Type}

theorem movesForward_pure (a : α) : MovesForward (pure a) := Forward.refl

theorem movesForward_throw (e : CBORError) : MovesForward (throw e : Read α) := Forward.refl

theorem movesForward_read : MovesForward read := by
  intro d
  rw [read_eq]
  rcases hr : d.rest with _ | ⟨b, r⟩
  · exact Forward.refl d
  · exact forward_advance (by simp [hr])

theorem movesForward_readSlice (n : Nat) : MovesForward (readSlice n) := by
  intro d
  rw [readSlice_eq]
  split_ifs with h
  · exact forward_advance (by rw [rest_length]; omega)
  · exact Forward.refl d

theorem MovesForward.bind {x : Read α} {f : α → Read β} (hx : MovesForward x) (hf : ∀ a, MovesForward (f a)) :
    MovesForward (x >>= f) := by
  intro d
  have h := hx d
  rcases hd : x d with ⟨a, d₁⟩ | ⟨e, d₁⟩ <;> rw [hd] at h
  · rw [bind_ok hd]
    exact h.trans (hf a d₁)
  · rwa [bind_error hd]

theorem movesForward_asUsize (b : UInt8) : MovesForward (asUsize b) := by
  unfold asUsize
  split_ifs
  · exact movesForward_pure _
  · exact movesForward_read.bind fun _ => movesForward_pure _
  · exact movesForward_throw _

theorem movesForward_u8 : MovesForward u8 := movesForward_read.bind fun n => by
  split_ifs
  exacts [movesForward_pure n, movesForward_read, movesForward_throw _]

theorem movesForward_intRaw : MovesForward intRaw := movesForward_read.bind fun n => by
  split_ifs
  exacts [movesForward_pure n, movesForward_throw _]

theorem movesForward_majorString (major : UInt8) : MovesForward (majorString major) :=
  movesForward_read.bind fun b => by
    split_ifs
    exacts [movesForward_throw _, (movesForward_asUsize _).bind movesForward_readSlice]

theorem movesForward_bytesSized (n : Nat) : MovesForward (bytesSized n) :=
  (movesForward_majorString _).bind fun res => by
    split_ifs
    exacts [movesForward_pure res, movesForward_throw _]

theorem movesForward_array : MovesForward array := movesForward_read.bind fun b => by
  split_ifs
  exacts [movesForward_throw _, movesForward_throw _, movesForward_asUsize _]

end MovesForward

/-- Where `i8` leaves the decoder: where it was when no byte remains, past the initial byte when it reads an inline
integer or fails after it, and past two bytes when it reads a one-byte argument. -/
theorem i8_cases {d : CBORDecoder} {res : EStateM.Result CBORError CBORDecoder Int8} (h : i8 d = some res) :
    (d.rest = [] ∧ res = .error .decodingError d) ∨ (∃ b r, d.rest = b :: r ∧ after res = d.advance 1) ∨
      ∃ b c r v, d.rest = b :: c :: r ∧ res = .ok v (d.advance 2) := by
  rcases hr : d.rest with _ | ⟨b, r⟩
  · rw [i8_nil hr] at h
    exact .inl ⟨rfl, (Option.some.inj h).symm⟩
  rw [i8_cons hr] at h
  split_ifs at h
  · cases h; exact .inr (.inl ⟨b, r, rfl, rfl⟩)
  · cases h; exact .inr (.inl ⟨b, r, rfl, rfl⟩)
  · rcases r with _ | ⟨c, r⟩ <;> cases h
    exacts [.inr (.inl ⟨b, [], rfl, rfl⟩), .inr (.inr ⟨b, c, r, _, rfl, rfl⟩)]
  · rcases r with _ | ⟨c, r⟩
    · cases h; exact .inr (.inl ⟨b, [], rfl, rfl⟩)
    · obtain ⟨x, -, rfl⟩ := Option.map_eq_some'.1 h
      exact .inr (.inr ⟨b, c, r, _, rfl, rfl⟩)
  · cases h; exact .inr (.inl ⟨b, r, rfl, rfl⟩)

/-- `i8` moves the decoder forward too, wherever it does not panic. -/
theorem forward_i8 {d : CBORDecoder} {res : EStateM.Result CBORError CBORDecoder Int8} (h : i8 d = some res) :
    Forward d (after res) := by
  rcases i8_cases h with ⟨-, rfl⟩ | ⟨b, r, hr, ha⟩ | ⟨b, c, r, v, hr, rfl⟩
  · exact Forward.refl d
  · exact ha ▸ forward_advance (by simp [hr])
  · exact forward_advance (by simp [hr])

/-! ## Failed reads -/

/-- Where a read that failed after reading at most `m` bytes leaves the decoder: past at most `m` of the bytes that
remain, and past at least one unless none remained. -/
def FailedWithin (m : Nat) (d d' : CBORDecoder) : Prop :=
  ∃ k ≤ m, k ≤ d.rest.length ∧ (k = 0 ↔ d.rest = []) ∧ d' = d.advance k

section FailedWithin

variable {m : Nat} {d d' : CBORDecoder} {e : CBORError}

theorem failedWithin_nil (hr : d.rest = []) : FailedWithin m d d :=
  ⟨0, Nat.zero_le _, Nat.zero_le _, iff_of_true rfl hr, rfl⟩

theorem failedWithin_one {b : UInt8} {r : List UInt8} (hr : d.rest = b :: r) (hm : 1 ≤ m) :
    FailedWithin m d (d.advance 1) :=
  ⟨1, hm, by simp [hr], by simp [hr], rfl⟩

theorem FailedWithin.mono {m' : Nat} (h : FailedWithin m d d') (hm : m ≤ m') : FailedWithin m' d d' := by
  obtain ⟨k, hk, h⟩ := h
  exact ⟨k, hk.trans hm, h⟩

/-- The length of the head that the byte at the position starts: two bytes when its argument follows in one byte,
one otherwise, and none when no byte remains. -/
def headLength (d : CBORDecoder) : Nat :=
  match d.rest with
  | [] => 0
  | b :: _ => if infoOf b = 24 then 2 else 1

theorem headLength_cons {b : UInt8} {r : List UInt8} (hr : d.rest = b :: r) :
    headLength d = if infoOf b = 24 then 2 else 1 := by
  unfold headLength
  rw [hr]

/-- A failure within the initial byte is within the head. -/
theorem FailedWithin.head (h : FailedWithin 1 d d') : FailedWithin (headLength d) d d' := by
  obtain ⟨k, hk, hl, hz, rfl⟩ := h
  refine ⟨k, ?_, hl, hz, rfl⟩
  rcases hr : d.rest with _ | ⟨b, r⟩
  · exact (hz.2 hr).trans_le (Nat.zero_le _)
  · rw [headLength_cons hr]
    split_ifs <;> omega

/-- A short head at the position is as long as `headLength` says. -/
theorem length_eq_headLength {major : UInt8} (hm : IsMajor major) {n : Nat} {hd : List UInt8}
    (h : ShortHead major n hd) (hp : hd <+: d.rest) : hd.length = headLength d := by
  rcases hr : d.rest with _ | ⟨b, r⟩
  · rw [hr, List.prefix_nil] at hp
    exact absurd hp (shortHead_ne_nil h)
  · rw [hr] at hp
    rw [headLength_cons hr]
    obtain ⟨-, ⟨hi, -, rfl⟩ | ⟨hi, c, -, -, rfl⟩⟩ := (shortHead_prefix_iff hm).1 ⟨h, hp⟩
    · rw [if_neg fun h => absurd (h ▸ hi) (by decide)]
      rfl
    · rw [if_pos (UInt8.toNat.inj hi : infoOf b = 24)]
      rfl

theorem asUsize_error {i : UInt8} (h : asUsize i d = .error e d') : d' = d := by
  rw [asUsize_eq] at h
  split_ifs at h
  · split at h
    · cases h
    · cases h; rfl
  · cases h; rfl

/-- A head that fails to read has taken at most its initial byte. -/
theorem headArg_error {major : UInt8} (h : headArg major d = .error e d') : FailedWithin 1 d d' := by
  rcases hr : d.rest with _ | ⟨b, r⟩
  · unfold headArg at h
    rw [bind_error (read_nil hr)] at h
    cases h
    exact failedWithin_nil hr
  · rw [headArg_cons major hr] at h
    split_ifs at h
    · obtain rfl := asUsize_error h
      exact failedWithin_one hr le_rfl
    · cases h
      exact failedWithin_one hr le_rfl

theorem u8_error (h : u8 d = .error e d') : FailedWithin 1 d d' := by
  rw [u8_eq] at h
  split at h
  · cases h
  · rename_i hh
    cases h
    exact headArg_error hh

theorem intRaw_error (h : intRaw d = .error e d') : FailedWithin 1 d d' := by
  unfold intRaw at h
  rcases hr : d.rest with _ | ⟨b, r⟩
  · rw [bind_error (read_nil hr)] at h
    cases h
    exact failedWithin_nil hr
  · rw [bind_ok (read_cons hr)] at h
    split_ifs at h <;> cases h
    exact failedWithin_one hr le_rfl

theorem array_error (h : array d = .error e d') : FailedWithin 1 d d' := by
  rw [array_eq] at h
  exact headArg_error h

/-- A string that fails to read has taken at most its head: the content is read by `read_slice`, which fails without
moving. -/
theorem majorString_error {major : UInt8} (hm : IsMajor major) (h : majorString major d = .error e d') :
    FailedWithin (headLength d) d d' := by
  rw [majorString_eq] at h
  split at h
  · rename_i n d₁ hh
    obtain ⟨hd, ⟨hs, hp⟩, rfl⟩ := (headArg_ok_iff hm d n d₁).1 hh
    rw [readSlice_eq] at h
    split_ifs at h
    cases h
    have hne := shortHead_ne_nil hs
    refine ⟨hd.length, (length_eq_headLength hm hs hp).le, hp.length_le,
      ⟨fun h => absurd (List.length_eq_zero.1 h) hne, fun h => ?_⟩, rfl⟩
    rw [h, List.prefix_nil] at hp
    exact absurd hp hne
  · rename_i hh
    cases h
    exact (headArg_error hh).head

theorem bytesSized_error {n : Nat} (h : bytesSized n d = .error e d') :
    FailedWithin (headLength d) d d' ∨ ∃ v, bytes d = .ok v d' ∧ v.length ≠ n := by
  unfold bytesSized at h
  rcases hb : bytes d with ⟨v, d₁⟩ | ⟨e', d₁⟩
  · rw [bind_ok hb] at h
    split_ifs at h with hn <;> cases h
    exact .inr ⟨v, rfl, hn⟩
  · rw [bind_error hb] at h
    cases h
    exact .inl (majorString_error isMajor_byteString hb)

theorem i8_error (h : i8 d = some (.error e d')) : FailedWithin 1 d d' := by
  rcases i8_cases h with ⟨hr, ⟨⟩⟩ | ⟨b, r, hr, rfl⟩ | ⟨-, -, -, -, -, ⟨⟩⟩
  · exact failedWithin_nil hr
  · exact failedWithin_one hr le_rfl

end FailedWithin

/-- A read that returns `Err` has moved the decoder over the bytes it read before failing: the initial byte for
`u8`, `i8`, `int_raw` and `array`, the head for `str` and `bytes`, and for `bytes_sized` possibly a whole byte
string of the wrong length. It leaves the position as it was only when no byte remains. -/
theorem failed_reads_advance (d : CBORDecoder) :
    (∀ e d', u8 d = .error e d' → FailedWithin 1 d d') ∧
    (∀ e d', i8 d = some (.error e d') → FailedWithin 1 d d') ∧
    (∀ e d', intRaw d = .error e d' → FailedWithin 1 d d') ∧
    (∀ e d', str d = .error e d' → FailedWithin (headLength d) d d') ∧
    (∀ e d', bytes d = .error e d' → FailedWithin (headLength d) d d') ∧
    (∀ n e d', bytesSized n d = .error e d' →
      FailedWithin (headLength d) d d' ∨ ∃ v, bytes d = .ok v d' ∧ v.length ≠ n) ∧
    (∀ e d', array d = .error e d' → FailedWithin 1 d d') :=
  ⟨fun _ _ => u8_error, fun _ _ => i8_error, fun _ _ => intRaw_error,
    fun _ _ => majorString_error isMajor_textString, fun _ _ => majorString_error isMajor_byteString,
    fun _ _ _ => bytesSized_error, fun _ _ => array_error⟩

/-- `u8` on `0x19` fails at position 1, and `bytes` on the head `0x58 0x05` with no content at position 2. -/
theorem u8_fails_past_byte :
    u8 (new [0x19]) = .error .decodingError ⟨[0x19], 1⟩ ∧
      bytes (new [0x58, 0x05]) = .error .decodingError ⟨[0x58, 0x05], 2⟩ :=
  ⟨rfl, rfl⟩

/-! ## Runs of calls -/

/-- A call on the decoder: a read, `as_usize`, or one of the `&self` methods. -/
inductive Op
  | u8
  | i8
  | intRaw
  | str
  | bytes
  | bytesSized (expectedSize : Nat)
  | array
  | asUsize (b : UInt8)
  | position
  | finished
  | ensureFinished
  | remainingBuffer
  | current
  deriving DecidableEq, Repr

/-- The decoder after one call, whether the call returned `Ok` or `Err`; `none` where it panics. The `&self` methods
leave the decoder as it is. -/
def step : Op → CBORDecoder → Option CBORDecoder
  | .u8, d => some (after (u8 d))
  | .i8, d => (i8 d).map after
  | .intRaw, d => some (after (intRaw d))
  | .str, d => some (after (str d))
  | .bytes, d => some (after (bytes d))
  | .bytesSized n, d => some (after (bytesSized n d))
  | .array, d => some (after (array d))
  | .asUsize b, d => some (after (asUsize b d))
  | .position, d | .finished, d | .ensureFinished, d | .remainingBuffer, d | .current, d => some d

/-- The decoder after a sequence of calls; `none` once one panics. -/
def run : List Op → CBORDecoder → Option CBORDecoder
  | [], d => some d
  | op :: ops, d => (step op d).bind (run ops)

theorem run_append : ∀ (ops₁ ops₂ : List Op) (d : CBORDecoder), run (ops₁ ++ ops₂) d = (run ops₁ d).bind (run ops₂)
  | [], _, _ => rfl
  | op :: ops₁, ops₂, d => by
    show (step op d).bind (run (ops₁ ++ ops₂)) = _
    rw [run, Option.bind_assoc]
    exact congrArg _ (funext (run_append ops₁ ops₂))

theorem forward_step {op : Op} {d d' : CBORDecoder} (h : step op d = some d') : Forward d d' := by
  cases op <;> simp only [step, Option.some.injEq] at h
  case i8 =>
    obtain ⟨res, hres, rfl⟩ := Option.map_eq_some'.1 h
    exact forward_i8 hres
  all_goals subst h
  case u8 => exact movesForward_u8 d
  case intRaw => exact movesForward_intRaw d
  case str => exact movesForward_majorString _ d
  case bytes => exact movesForward_majorString _ d
  case bytesSized => exact movesForward_bytesSized _ d
  case array => exact movesForward_array d
  case asUsize => exact movesForward_asUsize _ d
  all_goals exact Forward.refl d

theorem forward_run : ∀ {ops : List Op} {d d' : CBORDecoder}, run ops d = some d' → Forward d d'
  | [], _, _, h => by cases h; exact Forward.refl _
  | _ :: _, _, _, h => by
    obtain ⟨d₁, h₁, h⟩ := Option.bind_eq_some.1 h
    exact (forward_step h₁).trans (forward_run h)

/-- The decoders that some sequence of calls on `CBORDecoder::new(buf)` reaches. -/
def Reachable (buf : List UInt8) (d : CBORDecoder) : Prop := ∃ ops, run ops (new buf) = some d

theorem reachable_new (buf : List UInt8) : Reachable buf (new buf) := ⟨[], rfl⟩

/-- A call on a reachable decoder reaches a decoder whose position is not below the one before. -/
theorem Reachable.step {buf : List UInt8} {d d' : CBORDecoder} (h : Reachable buf d) {op : Op}
    (hs : step op d = some d') : Reachable buf d' ∧ d.position ≤ d'.position := by
  obtain ⟨ops, hops⟩ := h
  refine ⟨⟨ops ++ [op], ?_⟩, (forward_step hs).pos_le⟩
  rw [run_append, hops]
  simp [run, hs]

theorem remainingBuffer_of_le {d : CBORDecoder} (h : d.pos ≤ d.buf.length) : d.remainingBuffer = .ok d.rest := by
  simp [remainingBuffer, getFrom, h, rest]

/-- A reachable decoder is on `buf`, within it, and `remaining_buffer` returns its remaining bytes. -/
theorem reachable_inv {buf : List UInt8} {d : CBORDecoder} (h : Reachable buf d) :
    d.buf = buf ∧ d.pos ≤ buf.length ∧ d.remainingBuffer = .ok d.rest := by
  obtain ⟨ops, hops⟩ := h
  have hf := forward_run hops
  have hpos : d.pos ≤ buf.length := hf.pos_le_length (Nat.zero_le _)
  exact ⟨hf.buf_eq, hpos, remainingBuffer_of_le (by rw [hf.buf_eq]; exact hpos)⟩

end CBORDecoder

end Lakers
