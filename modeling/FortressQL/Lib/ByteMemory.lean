import FortressQL.Lib.ByteStrings
import Mathlib.Data.List.GetD

/-!
# Byte-addressed memory

Strings of bytes are stored at an address and loaded from one. A load sees the bytes that were
stored there last and is blind to stores elsewhere.
-/

namespace FortressQL.Lib.ByteMemory

open List Lib.ByteStrings

variable {count offset location start : Nat}

abbrev Memory := Nat → UInt8

def store (memory : Memory) (address : Nat) (bytes : Bytes) : Memory := fun location =>
  if address ≤ location ∧ location < address + bytes.length then bytes.getD (location - address) 0
  else memory location

def load (memory : Memory) (address length : Nat) : Bytes :=
  (List.range length).map fun offset => memory (address + offset)

@[simp]
theorem load_length (memory : Memory) (address length : Nat) :
    (load memory address length).length = length := by
  simp [load]

theorem load_append (memory : Memory) (address first second : Nat) :
    load memory address (first + second) =
      load memory address first ++ load memory (address + first) second := by
  simp [load, range_add, add_assoc]

variable {memory : Memory} {address length : Nat} {bytes : Bytes}

theorem load_pieces {first second : Bytes}
    (loaded : load memory address (first ++ second).length = first ++ second) :
    load memory address first.length = first ∧
      load memory (address + first.length) second.length = second := by
  rw [length_append, load_append] at loaded
  exact append_inj loaded (load_length _ _ _)

theorem load_congr {memory' : Memory}
    (same : ∀ location, address ≤ location → location < address + length →
      memory' location = memory location) :
    load memory' address length = load memory address length := by
  apply map_congr_left
  intro offset inside
  exact same _ (Nat.le_add_right _ _) (Nat.add_lt_add_left (mem_range.mp inside) _)

theorem load_eq (same : ∀ offset < bytes.length, memory (address + offset) = bytes.getD offset 0) :
    load memory address bytes.length = bytes := by
  apply ext_getElem (load_length _ _ _)
  intro offset inside inBytes
  have found := same offset inBytes
  rw [getD_eq_getElem _ _ inBytes] at found
  simpa [load] using found

theorem take_load (memory : Memory) (address : Nat) (short : count ≤ length) :
    (load memory address length).take count = load memory address count := by
  obtain ⟨-, rfl⟩ := Nat.exists_eq_add_of_le short
  rw [load_append, take_left' (load_length _ _ _)]

theorem drop_load (memory : Memory) (address count rest : Nat) :
    (load memory address (count + rest)).drop count = load memory (address + count) rest := by
  rw [load_append, drop_left' (load_length _ _ _)]

theorem store_inside (memory : Memory) (address : Nat) (bytes : Bytes)
    (inside : offset < bytes.length) :
    store memory address bytes (address + offset) = bytes.getD offset 0 := by
  rw [store, if_pos ⟨Nat.le_add_right _ _, Nat.add_lt_add_left inside _⟩, Nat.add_sub_cancel_left]

theorem store_outside (memory : Memory)
    (outside : location < address ∨ address + bytes.length ≤ location) :
    store memory address bytes location = memory location :=
  if_neg (by omega)

theorem load_store (memory : Memory) (address : Nat) (bytes : Bytes) :
    load (store memory address bytes) address bytes.length = bytes :=
  load_eq fun _ inside => store_inside memory address bytes inside

theorem load_store_apart (memory : Memory)
    (apart : start + length ≤ address ∨ address + bytes.length ≤ start) :
    load (store memory address bytes) start length = load memory start length :=
  load_congr fun _ low high => store_outside memory (by omega)

theorem store_nil (memory : Memory) (address : Nat) : store memory address [] = memory :=
  funext fun _ => store_outside memory (by rw [length_nil]; omega)

theorem store_append (memory : Memory) (address : Nat) (first second : Bytes) :
    store memory address (first ++ second) =
      store (store memory (address + first.length) second) address first := by
  funext location
  have length : (first ++ second).length = first.length + second.length := length_append
  by_cases below : location < address
  · rw [store_outside _ (.inl below), store_outside _ (.inl below), store_outside _ (by omega)]
  obtain ⟨offset, rfl⟩ := Nat.exists_eq_add_of_le (Nat.le_of_not_lt below)
  by_cases inFirst : offset < first.length
  · rw [store_inside _ _ _ (by omega), store_inside _ _ _ inFirst, getD_append _ _ _ _ inFirst]
  rw [store_outside (store _ _ _) (.inr (by omega))]
  by_cases inSecond : offset < first.length + second.length
  · obtain ⟨rest, rfl⟩ := Nat.exists_eq_add_of_le (Nat.le_of_not_lt inFirst)
    rw [store_inside _ _ _ (by omega), getD_append_right _ _ _ _ (by omega), ← add_assoc,
      store_inside _ _ _ (by omega), Nat.add_sub_cancel_left]
  · rw [store_outside _ (by omega), store_outside _ (by omega)]

def copyOver (source : Memory) (target : Memory) (start length : Nat) : Memory :=
  store target start (load source start length)

theorem copy_over_at (source target : Memory) (start length location : Nat) :
    copyOver source target start length location =
      if start ≤ location ∧ location < start + length then source location
      else target location := by
  unfold copyOver
  split
  · rename_i inside
    obtain ⟨offset, rfl⟩ := Nat.exists_eq_add_of_le inside.1
    have short : offset < length := by omega
    rw [store_inside _ _ _ (by rwa [load_length])]
    simp [load, short]
  · exact store_outside _ (by rw [load_length]; omega)

theorem copies_over_at {α : Type} (source target : Memory) (start length : α → Nat)
    {copies : List α} (copied : target location = source location ∨
      ∃ copy ∈ copies, start copy ≤ location ∧ location < start copy + length copy) :
    copies.foldl (fun target copy => copyOver source target (start copy) (length copy)) target
        location =
      source location := by
  induction copies generalizing target with
  | nil => exact copied.resolve_right nofun
  | cons copy rest ih =>
    apply ih
    dsimp only
    rw [copy_over_at]
    split
    · exact .inl rfl
    · rename_i outside
      refine copied.imp_right fun ⟨other, member, inOther⟩ => ⟨other, ?_, inOther⟩
      rcases mem_cons.mp member with rfl | later
      · exact absurd inOther outside
      · exact later

/-- `memmove`: all bytes are read before the first one is written. -/
def move (memory : Memory) (target source length : Nat) : Memory :=
  store memory target (load memory source length)

theorem move_self (memory : Memory) (address length : Nat) :
    move memory address address length = memory := by
  funext location
  exact (copy_over_at memory memory address length location).trans (ite_self _)

theorem load_move (memory : Memory) (target source : Nat) (inside : offset + count ≤ length) :
    load (move memory target source length) (target + offset) count =
      load memory (source + offset) count := by
  apply map_congr_left
  intro index below
  have short : offset + index < length := by
    have := mem_range.mp below
    omega
  rw [move, add_assoc, store_inside _ _ _ (by rwa [load_length]), add_assoc]
  simp [load, short]

theorem load_move_apart (memory : Memory) (source : Nat) {target : Nat}
    (apart : start + count ≤ target ∨ target + length ≤ start) :
    load (move memory target source length) start count = load memory start count :=
  load_store_apart memory (by rwa [load_length])

end FortressQL.Lib.ByteMemory
