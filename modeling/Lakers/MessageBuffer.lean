import Lakers.Basic

/-!
# The message buffer

`EdhocMessageBuffer` is a fixed array of `MAX_MESSAGE_SIZE_LEN` bytes and a length; the bytes beyond the length
are whatever was written there last. Equality is the derived `PartialEq`, which compares the whole array.

* Every operation reports overflow and never truncates (`push_spec`, `extendFromSlice_spec`, `fillWithSlice_spec`):
  it succeeds exactly when the result fits, then `as_slice` is the expected bytes, and on failure the buffer is
  unchanged. `new_from_slice` and `try_into` succeed exactly on slices that fit (`newFromSlice_spec`,
  `tryInto_spec`). Hence every buffer these operations build is `Valid`, and `as_slice` does not panic on it.
* The derived equality is not equality of `as_slice`: refilling with a shorter slice keeps stale bytes beyond the
  length. It is as long as every byte beyond the length is zero (`ZeroTail`), which `new`, `new_from_slice`,
  `try_into`, `push`, `extend_from_slice` and a refill that does not shrink the buffer all keep (`zeroTail_run`).
-/

namespace Lakers

/-- `EdhocMessageBuffer`: an owned `u8` vector of a limited length. -/
structure EdhocMessageBuffer where
  content : Mathlib.Vector UInt8 maxMessageSizeLen
  len : Nat
  deriving DecidableEq

namespace EdhocMessageBuffer

/-! ## The operations -/

/-- `new`, and `Default::default`: zeros, of length 0. -/
def new : EdhocMessageBuffer := ⟨Mathlib.Vector.replicate _ 0, 0⟩

/-- `as_slice`: `&self.content[0..self.len]`, which panics when the length is beyond the capacity. -/
def asSlice (b : EdhocMessageBuffer) : Option (List UInt8) :=
  if b.len ≤ maxMessageSizeLen then some (b.content.toList.take b.len) else none

/-- `push`. -/
def push (item : UInt8) : EStateM MessageBufferError EdhocMessageBuffer Unit := fun b =>
  if h : b.len < maxMessageSizeLen then .ok () ⟨b.content.set ⟨b.len, h⟩ item, b.len + 1⟩
  else .error .bufferAlreadyFull b

/-- `fill_with_slice`: the length becomes the slice's, and the slice is copied to the front. -/
def fillWithSlice (slice : List UInt8) : EStateM MessageBufferError EdhocMessageBuffer Unit := fun b =>
  if h : slice.length ≤ maxMessageSizeLen then .ok () ⟨writeAt b.content 0 slice (by omega), slice.length⟩
  else .error .sliceTooLong b

/-- `extend_from_slice`. -/
def extendFromSlice (slice : List UInt8) : EStateM MessageBufferError EdhocMessageBuffer Unit := fun b =>
  if h : b.len + slice.length ≤ maxMessageSizeLen then
    .ok () ⟨writeAt b.content b.len slice h, b.len + slice.length⟩
  else .error .sliceTooLong b

/-- `new_from_slice`: `new` filled with the slice. -/
def newFromSlice (slice : List UInt8) : Except MessageBufferError EdhocMessageBuffer :=
  match fillWithSlice slice new with
  | .ok _ buffer => .ok buffer
  | .error _ _ => .error .sliceTooLong

/-- `impl TryInto<EdhocMessageBuffer> for &[u8]`: the slice, padded with zeros. -/
def tryInto (slice : List UInt8) : Except Unit EdhocMessageBuffer :=
  if h : slice.length ≤ maxMessageSizeLen then
    .ok ⟨⟨slice ++ List.replicate (maxMessageSizeLen - slice.length) 0, by
      simp only [List.length_append, List.length_replicate]; omega⟩, slice.length⟩
  else .error ()

/-! ## Specifications -/

/-- The buffer is within its capacity. -/
def Valid (b : EdhocMessageBuffer) : Prop := b.len ≤ maxMessageSizeLen

/-- The state after a call of a mutating method, whatever it returned. -/
def after {α : Type} : EStateM.Result MessageBufferError EdhocMessageBuffer α → EdhocMessageBuffer
  | .ok _ b => b
  | .error _ b => b

@[simp] theorem after_ok {α : Type} (a : α) (b : EdhocMessageBuffer) : after (.ok a b) = b := rfl
@[simp] theorem after_error {α : Type} (e : MessageBufferError) (b : EdhocMessageBuffer) :
    after (.error e b : EStateM.Result _ _ α) = b := rfl

/-- What is asked of a mutating method: when `guard` holds it succeeds, leaving a valid buffer that holds `out`;
otherwise it fails and leaves the buffer as it was. -/
def Reports (op : EStateM MessageBufferError EdhocMessageBuffer Unit) (b : EdhocMessageBuffer) (guard : Prop)
    (out : List UInt8) : Prop :=
  (guard ∧ ∃ b', op b = .ok () b' ∧ Valid b' ∧ b'.asSlice = some out) ∨ (¬ guard ∧ ∃ e, op b = .error e b)

/-- What is asked of a constructor: when `guard` holds it returns a valid buffer that holds `out`, otherwise an
error. -/
def Builds {ε : Type} (r : Except ε EdhocMessageBuffer) (guard : Prop) (out : List UInt8) : Prop :=
  (guard ∧ ∃ b, r = .ok b ∧ Valid b ∧ b.asSlice = some out) ∨ (¬ guard ∧ ∃ e, r = .error e)

theorem asSlice_of_valid {b : EdhocMessageBuffer} (h : b.len ≤ maxMessageSizeLen) :
    b.asSlice = some (b.content.toList.take b.len) :=
  if_pos h

theorem valid_of_asSlice {b : EdhocMessageBuffer} {s : List UInt8} (h : b.asSlice = some s) : Valid b := by
  unfold asSlice at h; split at h
  · assumption
  · cases h

theorem length_of_asSlice {b : EdhocMessageBuffer} {s : List UInt8} (h : b.asSlice = some s) : s.length = b.len := by
  have hv : b.len ≤ 192 := valid_of_asSlice h
  rw [asSlice_of_valid hv, Option.some.injEq] at h
  simp [← h, hv]

theorem asSlice_new : new.asSlice = some [] := rfl

theorem push_spec (b : EdhocMessageBuffer) (x : UInt8) :
    Reports (push x) b (b.len < maxMessageSizeLen) (b.content.toList.take b.len ++ [x]) := by
  unfold Reports push
  by_cases h : b.len < maxMessageSizeLen
  · refine .inl ⟨h, _, dif_pos h, Nat.succ_le_of_lt h, ?_⟩
    have hl : b.len < b.content.toList.length := by simpa using h
    have ht : (b.content.toList.take b.len).length = b.len := by simp only [List.length_take]; omega
    rw [asSlice_of_valid (Nat.succ_le_of_lt h), Mathlib.Vector.toList_set,
      List.set_eq_take_append_cons_drop, if_pos hl]
    simp [List.take_append_eq_append_take, ht]
  · exact .inr ⟨h, _, dif_neg h⟩

theorem fillWithSlice_spec (b : EdhocMessageBuffer) (s : List UInt8) :
    Reports (fillWithSlice s) b (s.length ≤ maxMessageSizeLen) s := by
  unfold Reports fillWithSlice
  by_cases h : s.length ≤ maxMessageSizeLen
  · refine .inl ⟨h, _, dif_pos h, h, ?_⟩
    rw [asSlice_of_valid h]
    simp
  · exact .inr ⟨h, _, dif_neg h⟩

theorem extendFromSlice_spec (b : EdhocMessageBuffer) (s : List UInt8) :
    Reports (extendFromSlice s) b (b.len + s.length ≤ maxMessageSizeLen) (b.content.toList.take b.len ++ s) := by
  unfold Reports extendFromSlice
  by_cases h : b.len + s.length ≤ maxMessageSizeLen
  · exact .inl ⟨h, _, dif_pos h, h, by rw [asSlice_of_valid h, take_writeAt]⟩
  · exact .inr ⟨h, _, dif_neg h⟩

theorem newFromSlice_spec (s : List UInt8) : Builds (newFromSlice s) (s.length ≤ maxMessageSizeLen) s := by
  unfold newFromSlice
  rcases fillWithSlice_spec new s with ⟨h, b, hb, hv, hs⟩ | ⟨h, e, he⟩
  · exact .inl ⟨h, b, by rw [hb], hv, hs⟩
  · exact .inr ⟨h, _, by rw [he]⟩

theorem tryInto_spec (s : List UInt8) : Builds (tryInto s) (s.length ≤ maxMessageSizeLen) s := by
  unfold tryInto
  by_cases h : s.length ≤ maxMessageSizeLen
  · refine .inl ⟨h, _, dif_pos h, h, ?_⟩
    rw [asSlice_of_valid h]
    simp
  · exact .inr ⟨h, _, dif_neg h⟩

theorem valid_of_builds {ε : Type} {r : Except ε EdhocMessageBuffer} {guard : Prop} {out : List UInt8} {b}
    (h : Builds r guard out) (hr : r = .ok b) : Valid b := by
  rcases h with ⟨-, b', rfl, hv, -⟩ | ⟨-, e, rfl⟩
  · cases hr; exact hv
  · cases hr

/-- A mutating method keeps a buffer within its capacity, whatever it returns. -/
theorem valid_after_of_reports {op : EStateM MessageBufferError EdhocMessageBuffer Unit} {b : EdhocMessageBuffer}
    {guard : Prop} {out : List UInt8} (h : Reports op b guard out) (hb : Valid b) : Valid (after (op b)) := by
  rcases h with ⟨-, b', h', hv, -⟩ | ⟨-, e, h'⟩ <;> rw [h'] <;> assumption

/-! ## Runs of the mutating methods -/

/-- A call of one of the mutating methods. -/
inductive Op
  | push (x : UInt8)
  | extendFromSlice (s : List UInt8)
  | fillWithSlice (s : List UInt8)

/-- The method an `Op` calls. -/
def Op.call : Op → EStateM MessageBufferError EdhocMessageBuffer Unit
  | .push x => EdhocMessageBuffer.push x
  | .extendFromSlice s => EdhocMessageBuffer.extendFromSlice s
  | .fillWithSlice s => EdhocMessageBuffer.fillWithSlice s

/-- The buffer after a sequence of calls, each made whatever the ones before returned. -/
def run : List Op → EdhocMessageBuffer → EdhocMessageBuffer
  | [], b => b
  | o :: os, b => run os (after (o.call b))

/-- A buffer that `new`, `new_from_slice` or `try_into` returns. -/
def Initial (b : EdhocMessageBuffer) : Prop :=
  b = new ∨ (∃ s, newFromSlice s = .ok b) ∨ ∃ s, tryInto s = .ok b

/-- The buffers built from an initial one by calls of the mutating methods. -/
def Reachable (b : EdhocMessageBuffer) : Prop :=
  ∃ b₀ ops, Initial b₀ ∧ b = run ops b₀

theorem valid_initial {b : EdhocMessageBuffer} (h : Initial b) : Valid b := by
  rcases h with rfl | ⟨s, hs⟩ | ⟨s, hs⟩
  · exact Nat.zero_le _
  · exact valid_of_builds (newFromSlice_spec s) hs
  · exact valid_of_builds (tryInto_spec s) hs

theorem valid_call (o : Op) {b : EdhocMessageBuffer} (hb : Valid b) : Valid (after (o.call b)) := by
  cases o with
  | push x => exact valid_after_of_reports (push_spec b x) hb
  | extendFromSlice s => exact valid_after_of_reports (extendFromSlice_spec b s) hb
  | fillWithSlice s => exact valid_after_of_reports (fillWithSlice_spec b s) hb

theorem valid_run : ∀ (ops : List Op) {b : EdhocMessageBuffer}, Valid b → Valid (run ops b)
  | [], _, hb => hb
  | o :: os, _, hb => valid_run os (valid_call o hb)

theorem valid_of_reachable {b : EdhocMessageBuffer} (h : Reachable b) : Valid b := by
  obtain ⟨b₀, ops, h₀, rfl⟩ := h
  exact valid_run ops (valid_initial h₀)

/-- Overflow is always reported and never truncates: every mutating method succeeds exactly when the result fits,
then holds the old bytes and the new ones, and otherwise leaves the buffer as it was; the constructors succeed
exactly on slices that fit; and `as_slice` does not panic on any buffer they build. -/
theorem overflow_reported (b : EdhocMessageBuffer) (hb : b.len ≤ maxMessageSizeLen) (x : UInt8) (s : List UInt8) :
    ∃ old, b.asSlice = some old ∧
      Reports (push x) b (b.len < maxMessageSizeLen) (old ++ [x]) ∧
      Reports (extendFromSlice s) b (b.len + s.length ≤ maxMessageSizeLen) (old ++ s) ∧
      Reports (fillWithSlice s) b (s.length ≤ maxMessageSizeLen) s ∧
      Builds (newFromSlice s) (s.length ≤ maxMessageSizeLen) s ∧
      Builds (tryInto s) (s.length ≤ maxMessageSizeLen) s ∧
      ∀ b', Reachable b' → ∃ out, b'.asSlice = some out :=
  ⟨_, asSlice_of_valid hb, push_spec b x, extendFromSlice_spec b s, fillWithSlice_spec b s, newFromSlice_spec s,
    tryInto_spec s, fun _ h => ⟨_, asSlice_of_valid (valid_of_reachable h)⟩⟩

/-- With one byte free, `push` fits, and `extend_from_slice` of two bytes overflows and leaves the buffer as it
was. -/
theorem overflow_reported_oneFree :
    (⟨Mathlib.Vector.replicate _ 7, 191⟩ : EdhocMessageBuffer).len ≤ maxMessageSizeLen ∧
    extendFromSlice [1, 2] ⟨Mathlib.Vector.replicate _ 7, 191⟩ =
      .error .sliceTooLong ⟨Mathlib.Vector.replicate _ 7, 191⟩ ∧
    ∃ old, (⟨Mathlib.Vector.replicate _ 7, 191⟩ : EdhocMessageBuffer).asSlice = some old ∧
      Reports (push 1) ⟨Mathlib.Vector.replicate _ 7, 191⟩ (191 < maxMessageSizeLen) (old ++ [1]) ∧
      Reports (extendFromSlice [1, 2]) ⟨Mathlib.Vector.replicate _ 7, 191⟩ (191 + 2 ≤ maxMessageSizeLen)
        (old ++ [1, 2]) ∧
      Reports (fillWithSlice [1, 2]) ⟨Mathlib.Vector.replicate _ 7, 191⟩ (2 ≤ maxMessageSizeLen) [1, 2] ∧
      Builds (newFromSlice [1, 2]) (2 ≤ maxMessageSizeLen) [1, 2] ∧
      Builds (tryInto [1, 2]) (2 ≤ maxMessageSizeLen) [1, 2] ∧
      ∀ b', Reachable b' → ∃ out, b'.asSlice = some out :=
  ⟨by decide, rfl, overflow_reported _ (by decide) 1 [1, 2]⟩

/-! ## The derived equality -/

/-- Every byte beyond the length is zero. -/
def ZeroTail (b : EdhocMessageBuffer) : Prop := ∀ x ∈ b.content.toList.drop b.len, x = 0

/-- A refill with a slice shorter than the current length, which leaves old bytes beyond the new length. -/
def Op.Shrinks : Op → EdhocMessageBuffer → Prop
  | .fillWithSlice s, b => s.length < b.len
  | _, _ => False

/-- No call of the sequence shrinks the buffer it is made on. -/
def ShrinkFree : List Op → EdhocMessageBuffer → Prop
  | [], _ => True
  | o :: os, b => ¬ o.Shrinks b ∧ ShrinkFree os (after (o.call b))

/-- The buffers built from an initial one by calls that never shrink the buffer. -/
def ReachableWithoutShrinking (b : EdhocMessageBuffer) : Prop :=
  ∃ b₀ ops, Initial b₀ ∧ ShrinkFree ops b₀ ∧ b = run ops b₀

/-- Zeros beyond `m` stay zeros beyond any `n ≥ m` of a list that agrees with the old one from `n` on. -/
theorem zeros_drop_of_eq {l l' : List UInt8} {m n : Nat} (hz : ∀ x ∈ l.drop m, x = 0) (hmn : m ≤ n)
    (h : l'.drop n = l.drop n) : ∀ x ∈ l'.drop n, x = 0 := by
  intro x hx
  rw [h, show n = m + (n - m) by omega, ← List.drop_drop] at hx
  exact hz x (List.mem_of_mem_drop hx)

theorem drop_writeAt {n : Nat} (v : Mathlib.Vector UInt8 n) (start : Nat) (src : List UInt8)
    (h : start + src.length ≤ n) :
    (writeAt v start src h).toList.drop (start + src.length) = v.toList.drop (start + src.length) := by
  rw [toList_writeAt]
  exact List.drop_left' (by simp; omega)

/-- One call that does not shrink the buffer keeps the zeros beyond the length. -/
theorem zeroTail_call (o : Op) {b : EdhocMessageBuffer} (hb : ZeroTail b) (hs : ¬ o.Shrinks b) :
    ZeroTail (after (o.call b)) := by
  cases o with
  | push x =>
    simp only [Op.call, push]
    split
    · rw [after_ok]
      exact zeros_drop_of_eq hb (Nat.le_succ _) (by rw [Mathlib.Vector.toList_set, List.drop_set_of_lt _ _ (by simp)])
    · exact hb
  | extendFromSlice s =>
    simp only [Op.call, extendFromSlice]
    split
    · rw [after_ok]
      exact zeros_drop_of_eq hb (Nat.le_add_right _ _) (drop_writeAt _ _ _ ‹_›)
    · exact hb
  | fillWithSlice s =>
    simp only [Op.Shrinks, not_lt] at hs
    simp only [Op.call, fillWithSlice]
    split
    · rw [after_ok]
      exact zeros_drop_of_eq hb hs (by simp)
    · exact hb

theorem zeroTail_run : ∀ (ops : List Op) {b : EdhocMessageBuffer}, ZeroTail b → ShrinkFree ops b →
    ZeroTail (run ops b)
  | [], _, hb, _ => hb
  | o :: os, _, hb, ⟨hs, hos⟩ => zeroTail_run os (zeroTail_call o hb hs) hos

theorem after_of_newFromSlice {s : List UInt8} {b : EdhocMessageBuffer} (h : newFromSlice s = .ok b) :
    b = after (fillWithSlice s new) := by
  unfold newFromSlice at h
  split at h
  · rename_i heq
    cases h
    rw [heq, after_ok]
  · cases h

theorem zeroTail_initial {b : EdhocMessageBuffer} (h : Initial b) : ZeroTail b := by
  have hnew : ZeroTail new := fun x hx => (List.mem_replicate.1 hx).2
  rcases h with rfl | ⟨s, hs⟩ | ⟨s, hs⟩
  · exact hnew
  · rw [after_of_newFromSlice hs]
    exact zeroTail_call (.fillWithSlice s) hnew (Nat.not_lt_zero _)
  · unfold tryInto at hs
    split at hs
    · cases hs
      intro x hx
      simp only [Mathlib.Vector.toList_mk, List.drop_left] at hx
      exact (List.mem_replicate.1 hx).2
    · cases hs

/-- Two valid buffers with zeros beyond their lengths are equal when their slices are. -/
theorem eq_of_asSlice_eq {a b : EdhocMessageBuffer} (ha : Valid a) (hb : Valid b) (hza : ZeroTail a)
    (hzb : ZeroTail b) (h : a.asSlice = b.asSlice) : a = b := by
  have hlen : a.len = b.len := by
    rw [← length_of_asSlice (asSlice_of_valid ha), ← length_of_asSlice (asSlice_of_valid hb), asSlice_of_valid ha,
      asSlice_of_valid hb, Option.some.injEq] at *
    rw [h]
  have htake : a.content.toList.take a.len = b.content.toList.take b.len := by
    simpa [asSlice_of_valid ha, asSlice_of_valid hb] using h
  have hdrop : a.content.toList.drop a.len = b.content.toList.drop b.len := by
    rw [List.eq_replicate_iff.2 ⟨rfl, hza⟩, List.eq_replicate_iff.2 ⟨rfl, hzb⟩]
    simp [hlen]
  obtain ⟨ca, la⟩ := a
  obtain ⟨cb, lb⟩ := b
  simp only at hlen
  subst hlen
  congr
  apply Mathlib.Vector.eq
  rw [← List.take_append_drop la ca.toList, ← List.take_append_drop la cb.toList, htake, hdrop]

/-- The derived equality is equality of `as_slice` on the buffers built without a shrinking refill. -/
theorem eq_iff_asSlice_eq {a b : EdhocMessageBuffer} (ha : ReachableWithoutShrinking a)
    (hb : ReachableWithoutShrinking b) : a = b ↔ a.asSlice = b.asSlice := by
  obtain ⟨a₀, as, ha₀, has, rfl⟩ := ha
  obtain ⟨b₀, bs, hb₀, hbs, rfl⟩ := hb
  exact ⟨congrArg _, eq_of_asSlice_eq (valid_run as (valid_initial ha₀)) (valid_run bs (valid_initial hb₀))
    (zeroTail_run as (zeroTail_initial ha₀) has) (zeroTail_run bs (zeroTail_initial hb₀) hbs)⟩

/-- Two pushes, and a push followed by a refill that does not shrink, build the same slice and so the same
buffer. -/
theorem eq_iff_asSlice_eq_refill :
    ReachableWithoutShrinking (run [.push 1, .push 2] new) ∧
    ReachableWithoutShrinking (run [.push 9, .fillWithSlice [1, 2]] new) ∧
    (run [.push 1, .push 2] new).asSlice = (run [.push 9, .fillWithSlice [1, 2]] new).asSlice ∧
    run [.push 1, .push 2] new = run [.push 9, .fillWithSlice [1, 2]] new := by
  have ha : ReachableWithoutShrinking (run [.push 1, .push 2] new) :=
    ⟨new, [.push 1, .push 2], .inl rfl, ⟨nofun, nofun, trivial⟩, rfl⟩
  have hb : ReachableWithoutShrinking (run [.push 9, .fillWithSlice [1, 2]] new) :=
    ⟨new, [.push 9, .fillWithSlice [1, 2]], .inl rfl, ⟨nofun, (by decide : ¬ 2 < 1), trivial⟩, rfl⟩
  exact ⟨ha, hb, rfl, (eq_iff_asSlice_eq ha hb).2 rfl⟩

/-- Refilling `[1]` with the empty slice keeps the stale byte: the buffer has the slice of `new` and differs from
it. -/
theorem refill_keeps_stale_byte :
    ¬ ∀ a b : EdhocMessageBuffer, Reachable a → Reachable b → (a = b ↔ a.asSlice = b.asSlice) := by
  intro h
  obtain ⟨b₁, hb₁⟩ : ∃ b₁, tryInto [1] = .ok b₁ := ⟨_, rfl⟩
  have heq := (h _ new ⟨b₁, [.fillWithSlice []], .inr (.inr ⟨[1], hb₁⟩), rfl⟩ ⟨new, [], .inl rfl, rfl⟩).2 rfl
  unfold tryInto at hb₁
  rw [dif_pos (by decide)] at hb₁
  cases hb₁
  have h0 := congrArg (fun b : EdhocMessageBuffer => b.content.toList.head?) heq
  simp only [run, Op.call, fillWithSlice, List.length_nil, Nat.zero_le, dif_pos, after_ok, toList_writeAt,
    List.take_zero, List.append_nil, List.nil_append, Nat.add_zero, List.drop_zero, Mathlib.Vector.toList_mk,
    List.singleton_append, List.head?_cons, new, toList_replicate, List.head?_replicate] at h0
  simp at h0

end EdhocMessageBuffer

end Lakers
