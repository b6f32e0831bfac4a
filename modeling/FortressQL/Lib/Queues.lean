import Mathlib.Data.List.Basic

/-!
# A bounded queue that drops what does not fit

A push into a full queue is lost. After any number of pushes the queue holds what it held
and the pushed items, cut off at its capacity.
-/

namespace FortressQL.Lib.Queues

open List

structure BoundedQueue (capacity : Nat) (Item : Type*) where
  items : List Item
  bounded : items.length ≤ capacity

variable {capacity : Nat} {Item : Type*}

def BoundedQueue.empty (capacity : Nat) (Item : Type*) : BoundedQueue capacity Item :=
  { items := []
    bounded := Nat.zero_le capacity }

def BoundedQueue.push (queue : BoundedQueue capacity Item) (item : Item) :
    BoundedQueue capacity Item :=
  if room : queue.items.length < capacity then
    { items := queue.items ++ [item]
      bounded := by
        rw [List.length_append, List.length_singleton]
        exact room }
  else queue

def BoundedQueue.pushAll (queue : BoundedQueue capacity Item) (arrivals : List Item) :
    BoundedQueue capacity Item :=
  arrivals.foldl BoundedQueue.push queue

variable (queue : BoundedQueue capacity Item)

theorem push_all_append (first second : List Item) :
    queue.pushAll (first ++ second) = (queue.pushAll first).pushAll second :=
  foldl_append

theorem cut_then_append (capacity : Nat) (held arrivals : List Item) :
    (held.take capacity ++ arrivals).take capacity = (held ++ arrivals).take capacity := by
  have room : capacity - min capacity held.length = capacity - held.length := by omega
  rw [take_append, take_append, take_take, Nat.min_self, length_take, room]

theorem push_items (item : Item) :
    (queue.push item).items = (queue.items ++ [item]).take capacity := by
  have bounded := queue.bounded
  unfold BoundedQueue.push
  split_ifs with room
  · have fits : (queue.items ++ [item]).length ≤ capacity := by
      rw [length_append]
      exact room
    rw [take_of_length_le fits]
  · have full : capacity - queue.items.length = 0 := by omega
    rw [take_append, take_of_length_le bounded, full, take_zero, append_nil]

theorem push_all_items (arrivals : List Item) :
    (queue.pushAll arrivals).items = (queue.items ++ arrivals).take capacity := by
  induction arrivals generalizing queue with
  | nil =>
    rw [append_nil, take_of_length_le queue.bounded]
    rfl
  | cons item rest ih =>
    have step : (queue.pushAll (item :: rest)).items = ((queue.push item).pushAll rest).items :=
      rfl
    rw [step, ih, push_items, cut_then_append, ← append_cons]

theorem cut_length_le (capacity : Nat) (periods : List (List Item)) :
    (periods.flatMap (List.take capacity)).length ≤ periods.flatten.length := by
  induction periods with
  | nil => exact Nat.le_refl _
  | cons period rest ih =>
    rw [flatMap_cons, flatten_cons, length_append, length_append, length_take]
    omega

theorem cut_periods_eq_iff (capacity : Nat) (periods : List (List Item)) :
    periods.flatMap (List.take capacity) = periods.flatten ↔
      ∀ period ∈ periods, period.length ≤ capacity := by
  induction periods with
  | nil => simp
  | cons period rest ih =>
    rw [flatMap_cons, flatten_cons, forall_mem_cons, ← ih]
    constructor
    · intro same
      have lengths := congrArg List.length same
      have below := cut_length_le capacity rest
      rw [length_append, length_append, length_take] at lengths
      have fits : period.length ≤ capacity := by omega
      rw [take_of_length_le fits] at same
      exact ⟨fits, append_cancel_left same⟩
    · rintro ⟨fits, same⟩
      rw [take_of_length_le fits, same]

end FortressQL.Lib.Queues
