import Mathlib.Data.Nat.ModEq
import Mathlib.Tactic.Common

/-!
# Sequences sealed one chunk at a time

Each chunk is sealed for the position it is written at. If nothing else opens, a reader accepts
exactly the sequences that put every chunk at a position with its nonce.
-/

namespace FortressQL.Lib.ChunkSequences

open Option List

section Positions

variable {Item Made : Type*} (step : Nat → Item → Option Made)

def atPositions : Nat → List Item → Option (List Made)
  | _, [] => some []
  | position, item :: rest =>
    (step position item).bind fun made =>
      (atPositions (position + 1) rest).map fun others => made :: others

variable {step} {start : Nat} {result : List Made} {items : List Item}

theorem at_positions_cons {item : Item} {rest : List Item} :
    atPositions step start (item :: rest) = some result ↔
      ∃ made others, step start item = some made ∧
        atPositions step (start + 1) rest = some others ∧ made :: others = result := by
  simp only [atPositions, bind_eq_some_iff, map_eq_some_iff]
  constructor
  · rintro ⟨made, stepped, others, went, same⟩
    exact ⟨made, others, stepped, went, same⟩
  · rintro ⟨made, others, stepped, went, same⟩
    exact ⟨made, stepped, others, went, same⟩

theorem at_positions_length (went : atPositions step start items = some result) :
    result.length = items.length := by
  induction items generalizing start result with
  | nil =>
    obtain rfl := some.inj went
    rfl
  | cons item rest ih =>
    obtain ⟨-, others, -, remaining, rfl⟩ := at_positions_cons.mp went
    rw [length_cons, length_cons, ih remaining]

theorem at_positions_get (went : atPositions step start items = some result) {index : Nat}
    {item : Item} (found : items[index]? = some item) :
    ∃ made, result[index]? = some made ∧ step (start + index) item = some made := by
  induction items generalizing start result index with
  | nil => simp at found
  | cons first rest ih =>
    obtain ⟨made, others, stepped, remaining, rfl⟩ := at_positions_cons.mp went
    cases index with
    | zero =>
      obtain rfl : first = item := by simpa using found
      exact ⟨made, rfl, stepped⟩
    | succ index =>
      obtain ⟨later, present, laterStep⟩ := ih remaining (by simpa using found)
      refine ⟨later, by simpa using present, ?_⟩
      rwa [add_right_comm] at laterStep

theorem at_positions_succeeds
    (each : ∀ index item, items[index]? = some item → (step (start + index) item).isSome) :
    (atPositions step start items).isSome := by
  induction items generalizing start with
  | nil => rfl
  | cons first rest ih =>
    obtain ⟨made, stepped⟩ := isSome_iff_exists.mp (each 0 first rfl)
    have remaining : (atPositions step (start + 1) rest).isSome := by
      apply ih
      intro index item found
      have later := each (index + 1) item (by simpa using found)
      rwa [← add_assoc, add_right_comm] at later
    obtain ⟨others, went⟩ := isSome_iff_exists.mp remaining
    exact isSome_iff_exists.mpr ⟨_, at_positions_cons.mpr ⟨made, others, stepped, went, rfl⟩⟩

end Positions

section Sealing

variable {Chunk Frame : Type*} {sealAt : Nat → Chunk → Option Frame}
  {openAt : Nat → Frame → Option Chunk} {shares : Nat → Nat → Prop}
  {chunks : List Chunk} {frames : List Frame}

theorem opens_sealed
    (inverse : ∀ position chunk, chunk ∈ chunks → ∀ frame, sealAt position chunk = some frame →
      openAt position frame = some chunk)
    {start : Nat} (written : atPositions sealAt start chunks = some frames) :
    atPositions openAt start frames = some chunks := by
  induction chunks generalizing start frames with
  | nil =>
    obtain rfl := some.inj written
    rfl
  | cons chunk rest ih =>
    obtain ⟨frame, others, made, remaining, rfl⟩ := at_positions_cons.mp written
    refine at_positions_cons.mpr ⟨chunk, rest, inverse _ _ mem_cons_self _ made, ?_, rfl⟩
    exact ih (fun position later member => inverse position later
      (mem_cons_of_mem _ member)) remaining

/-- Every input is one of the frames, read at a position that shares its nonce. -/
def Placed (shares : Nat → Nat → Prop) (frames inputs : List Frame) : Prop :=
  ∀ index input, inputs[index]? = some input →
    ∃ position, shares position index ∧ frames[position]? = some input

variable {inputs : List Frame}

theorem accepted_iff_placed
    (opens : ∀ position index frame, shares position index → frames[position]? = some frame →
      (openAt index frame).isSome)
    (unforged : ∀ index input, inputs[index]? = some input → (openAt index input).isSome →
      ∃ position, shares position index ∧ frames[position]? = some input) :
    (atPositions openAt 0 inputs).isSome ↔ Placed shares frames inputs := by
  constructor
  · intro accepted index input found
    obtain ⟨result, went⟩ := isSome_iff_exists.mp accepted
    obtain ⟨chunk, -, opened⟩ := at_positions_get went found
    rw [zero_add] at opened
    exact unforged index input found (isSome_iff_exists.mpr ⟨chunk, opened⟩)
  · intro placed
    apply at_positions_succeeds
    intro index input found
    obtain ⟨position, sharing, present⟩ := placed index input found
    rw [zero_add]
    exact opens position index input sharing present

/-- Before the nonces repeat, only an initial segment is in place. -/
theorem placed_iff_initial {period : Nat} (framesShort : frames.length ≤ period)
    (inputsShort : inputs.length ≤ period) :
    Placed (fun position index => position ≡ index [MOD period]) frames inputs ↔
      inputs <+: frames := by
  rw [List.prefix_iff_getElem?]
  constructor
  · intro placed index bound
    obtain ⟨position, sharing, present⟩ := placed index _ (List.getElem?_eq_getElem bound)
    have inFrames : position < frames.length := (List.getElem?_eq_some_iff.mp present).1
    obtain rfl := Nat.ModEq.eq_of_lt_of_lt sharing (by omega) (by omega)
    exact present
  · intro initial index input found
    obtain ⟨bound, rfl⟩ := List.getElem?_eq_some_iff.mp found
    exact ⟨index, Nat.ModEq.refl index, initial index bound⟩

end Sealing

end FortressQL.Lib.ChunkSequences
