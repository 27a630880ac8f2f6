import Go2Cbt.Lib.LittleEndian
import Mathlib.Data.List.Basic

/-!
# Lib — items cut from a byte stream

A decoder looks at the bytes it has and either finds an item at their start, with the number of
bytes it takes, or asks for more.  What it finds must not change when more bytes follow.

A receiver keeps the bytes it has not used and a state of its own: `drain` handles one item
after the other until the decoder asks for more or the handler stops, and `feed` appends a chunk
and drains.  How the stream was cut into chunks makes no difference (`feed_feed`).
-/

namespace Framing

/-- A decoder whose answers later bytes do not change. -/
structure Decoder (ε : Type) where
  next : Bytes → Option (ε × Nat)
  pos : ∀ {bs e n}, next bs = some (e, n) → 0 < n
  le : ∀ {bs e n}, next bs = some (e, n) → n ≤ bs.length
  stable : ∀ {bs e n} (more : Bytes), next bs = some (e, n) → next (bs ++ more) = some (e, n)

/-- A receiver: the state of its handler, the bytes it has not used, whether it still goes on,
and the items it handled, in order. -/
structure Receiver (σ ε : Type) where
  state : σ
  rest : Bytes
  live : Bool
  items : List ε

variable {σ ε : Type} (D : Decoder ε) (handle : σ → ε → σ × Bool)

/-- Append bytes. -/
def Receiver.push (r : Receiver σ ε) (chunk : Bytes) : Receiver σ ε :=
  { r with rest := r.rest ++ chunk }

/-- Handle one item of `n` bytes.  An item that stops the receiver keeps its bytes. -/
def Receiver.take (r : Receiver σ ε) (e : ε) (n : Nat) : Receiver σ ε :=
  if (handle r.state e).2 then
    { r with state := (handle r.state e).1, rest := r.rest.drop n, items := r.items ++ [e] }
  else { r with state := (handle r.state e).1, live := false, items := r.items ++ [e] }

/-- At most `fuel` items. -/
def drainFrom : (fuel : Nat) → Receiver σ ε → Receiver σ ε
  | 0, r => r
  | fuel + 1, r =>
      if r.live then
        match D.next r.rest with
        | none => r
        | some (e, n) => drainFrom fuel (r.take handle e n)
      else r

/-- Every item there is.  Each takes a byte, so there are no more of them than bytes, and one
that stops the receiver. -/
def drain (r : Receiver σ ε) : Receiver σ ε := drainFrom D handle (r.rest.length + 1) r

/-- Take in a chunk. -/
def feed (r : Receiver σ ε) (chunk : Bytes) : Receiver σ ε := drain D handle (r.push chunk)

/-- There is nothing to handle. -/
def Settled (r : Receiver σ ε) : Prop := r.live = false ∨ D.next r.rest = none

@[simp] theorem Receiver.rest_push (r : Receiver σ ε) (chunk : Bytes) :
    (r.push chunk).rest = r.rest ++ chunk := rfl

@[simp] theorem Receiver.live_push (r : Receiver σ ε) (chunk : Bytes) :
    (r.push chunk).live = r.live := rfl

theorem Receiver.push_push (r : Receiver σ ε) (a b : Bytes) :
    (r.push a).push b = r.push (a ++ b) := by
  simp only [push, List.append_assoc]

theorem Receiver.push_nil (r : Receiver σ ε) : r.push [] = r := by
  simp only [push, List.append_nil]

variable {D handle}

theorem drainFrom_of_settled {r : Receiver σ ε} (h : Settled D r) (fuel : Nat) :
    drainFrom D handle fuel r = r := by
  cases fuel with
  | zero => rfl
  | succ fuel =>
      rw [drainFrom]
      rcases h with h | h
      · rw [h]; rfl
      · split
        · rw [h]
        · rfl

theorem drainFrom_succ {r : Receiver σ ε} {e : ε} {n : Nat} (hlive : r.live = true)
    (h : D.next r.rest = some (e, n)) (fuel : Nat) :
    drainFrom D handle (fuel + 1) r = drainFrom D handle fuel (r.take handle e n) := by
  rw [drainFrom, if_pos hlive, h]

/-- Either a receiver is settled or there is an item to handle. -/
theorem settled_or_next (D : Decoder ε) (r : Receiver σ ε) :
    Settled D r ∨ r.live = true ∧ ∃ e n, D.next r.rest = some (e, n) := by
  cases hlive : r.live with
  | false => exact .inl (.inl hlive)
  | true =>
      cases hnext : D.next r.rest with
      | none => exact .inl (.inr hnext)
      | some p => exact .inr ⟨rfl, p.1, p.2, rfl⟩

variable (handle) in
/-- An item leaves fewer bytes, or stops the receiver. -/
theorem take_shrinks {r : Receiver σ ε} {e : ε} {n : Nat} (h : D.next r.rest = some (e, n)) :
    (r.take handle e n).live = false ∨ (r.take handle e n).rest.length < r.rest.length := by
  have hpos := D.pos h
  have hle := D.le h
  rw [Receiver.take]
  split
  · right
    rw [List.length_drop]
    omega
  · exact .inl rfl

/-- Enough fuel settles the receiver. -/
theorem settled_drainFrom {fuel : Nat} {r : Receiver σ ε} (h : r.rest.length < fuel) :
    Settled D (drainFrom D handle fuel r) := by
  induction fuel generalizing r with
  | zero => exact absurd h (Nat.not_lt_zero _)
  | succ fuel ih =>
      rcases settled_or_next D r with hs | ⟨hlive, e, n, hnext⟩
      · rw [drainFrom_of_settled hs]
        exact hs
      · rw [drainFrom_succ hlive hnext]
        rcases take_shrinks handle hnext with hdead | hlt
        · rw [drainFrom_of_settled (.inl hdead)]
          exact .inl hdead
        · exact ih (by omega)

/-- More fuel changes nothing. -/
theorem drainFrom_eq_drainFrom {f g : Nat} {r : Receiver σ ε} (hf : r.rest.length < f)
    (hg : r.rest.length < g) : drainFrom D handle f r = drainFrom D handle g r := by
  induction f generalizing g r with
  | zero => exact absurd hf (Nat.not_lt_zero _)
  | succ f ih =>
      cases g with
      | zero => exact absurd hg (Nat.not_lt_zero _)
      | succ g =>
          rcases settled_or_next D r with hs | ⟨hlive, e, n, hnext⟩
          · rw [drainFrom_of_settled hs, drainFrom_of_settled hs]
          · rw [drainFrom_succ hlive hnext, drainFrom_succ hlive hnext]
            rcases take_shrinks handle hnext with hdead | hlt
            · rw [drainFrom_of_settled (.inl hdead), drainFrom_of_settled (.inl hdead)]
            · exact ih (by omega) (by omega)

theorem drain_of_settled {r : Receiver σ ε} (h : Settled D r) : drain D handle r = r :=
  drainFrom_of_settled h _

theorem settled_drain (r : Receiver σ ε) : Settled D (drain D handle r) :=
  settled_drainFrom (Nat.lt_succ_self _)

/-- Draining handles the first item and drains. -/
theorem drain_of_next {r : Receiver σ ε} {e : ε} {n : Nat} (hlive : r.live = true)
    (h : D.next r.rest = some (e, n)) :
    drain D handle r = drain D handle (r.take handle e n) := by
  rw [drain, drainFrom_succ hlive h]
  rcases take_shrinks handle h with hdead | hlt
  · rw [drainFrom_of_settled (.inl hdead), drain_of_settled (.inl hdead)]
  · exact drainFrom_eq_drainFrom hlt (Nat.lt_succ_self _)

/-- Handling the first item does not look at the bytes after it. -/
theorem take_push {r : Receiver σ ε} {e : ε} {n : Nat} (h : n ≤ r.rest.length) (chunk : Bytes) :
    (r.push chunk).take handle e n = (r.take handle e n).push chunk := by
  by_cases hgo : (handle r.state e).2 = true
  · simp only [Receiver.take, Receiver.push, hgo, if_true, List.drop_append_of_le_length h]
  · simp only [Receiver.take, Receiver.push, hgo, if_false, Bool.false_eq_true]

/-- **Draining early makes no difference.** -/
theorem drain_push_drain (r : Receiver σ ε) (chunk : Bytes) :
    drain D handle ((drain D handle r).push chunk) = drain D handle (r.push chunk) := by
  induction hlen : r.rest.length using Nat.strong_induction_on generalizing r with
  | _ len ih =>
      rcases settled_or_next D r with hs | ⟨hlive, e, n, hnext⟩
      · rw [drain_of_settled hs]
      · have hpush : drain D handle (r.push chunk)
            = drain D handle ((r.take handle e n).push chunk) := by
          rw [← take_push (D.le hnext) chunk]
          exact drain_of_next hlive (D.stable chunk hnext)
        rw [drain_of_next hlive hnext, hpush]
        rcases take_shrinks handle hnext with hdead | hlt
        · rw [drain_of_settled (.inl hdead)]
        · exact ih _ (hlen ▸ hlt) _ rfl

/-- **How a stream is cut makes no difference.** -/
theorem feed_feed (r : Receiver σ ε) (a b : Bytes) :
    feed D handle (feed D handle r a) b = feed D handle r (a ++ b) := by
  rw [feed, feed, feed, drain_push_drain, Receiver.push_push]

@[simp] theorem Receiver.items_take (r : Receiver σ ε) (e : ε) (n : Nat) :
    (r.take handle e n).items = r.items ++ [e] := by
  rw [take]
  split <;> rfl

theorem Receiver.take_of_goes {r : Receiver σ ε} {e : ε} {st : σ} (h : handle r.state e = (st, true))
    (n : Nat) :
    r.take handle e n = { r with state := st, rest := r.rest.drop n, items := r.items ++ [e] } := by
  rw [take, h]
  rfl

/-- What was handled stays handled. -/
theorem items_prefix_drainFrom (fuel : Nat) (r : Receiver σ ε) :
    r.items <+: (drainFrom D handle fuel r).items := by
  induction fuel generalizing r with
  | zero => exact List.prefix_rfl
  | succ fuel ih =>
      rcases settled_or_next D r with hs | ⟨hlive, e, n, hnext⟩
      · have hsame : drainFrom D handle (fuel + 1) r = r := drainFrom_of_settled hs _
        exact ⟨[], (List.append_nil _).trans (congrArg Receiver.items hsame.symm)⟩
      · rw [drainFrom_succ hlive hnext]
        refine List.IsPrefix.trans ?_ (ih _)
        rw [Receiver.items_take]
        exact List.prefix_append _ _

theorem items_prefix_feed (r : Receiver σ ε) (chunk : Bytes) :
    r.items <+: (feed D handle r chunk).items :=
  items_prefix_drainFrom _ (r.push chunk)

end Framing
