import FortressQL.Lib.ByteStrings

/-!
# Consecutive fields

A reader that takes fields of given lengths gets what a writer put there and stops at the first
incomplete field.
-/

namespace FortressQL.Lib.Fields

open List Lib.ByteStrings

def readFields : List Nat → Bytes → Option (List Bytes)
  | [], _ => some []
  | length :: lengths, data =>
    if data.length < length then none
    else (readFields lengths (data.drop length)).map fun fields => data.take length :: fields

theorem read_fields_flatten (fields : List Bytes) (rest : Bytes) :
    readFields (fields.map List.length) (fields.flatten ++ rest) = some fields := by
  induction fields with
  | nil => rfl
  | cons field fields ih =>
    have complete : ¬ (field ++ (fields.flatten ++ rest)).length < field.length := by
      rw [length_append]
      omega
    rw [map_cons, flatten_cons, append_assoc, readFields, if_neg complete, drop_left, take_left, ih,
      Option.map_some]

theorem read_fields_none {lengths : List Nat} {data : Bytes} (short : data.length < lengths.sum) :
    readFields lengths data = none := by
  induction lengths generalizing data with
  | nil => simp at short
  | cons length lengths ih =>
    unfold readFields
    split_ifs with incomplete
    · rfl
    · rw [sum_cons] at short
      rw [ih (by rw [length_drop]; omega), Option.map_none]

/-- A position in a text, with the number of bytes that may still be read. -/
structure Cursor where
  ptr : Bytes
  remaining : Nat

def Cursor.advance (cursor : Cursor) (size : Nat) : Cursor :=
  { ptr := cursor.ptr.drop size, remaining := cursor.remaining - size }

def Cursor.field (cursor : Cursor) (size : Nat) : Option (Bytes × Cursor) :=
  if cursor.remaining < size then none
  else some (cursor.ptr.take size, cursor.advance size)

theorem field_append {field : Bytes} {size : Nat} (length : field.length = size) (rest : Bytes)
    (remaining : Nat) :
    ({ ptr := field ++ rest, remaining := size + remaining } : Cursor).field size =
      some (field, { ptr := rest, remaining := remaining }) := by
  subst length
  have enough : ¬ field.length + remaining < field.length := by omega
  simp [Cursor.field, Cursor.advance]

end FortressQL.Lib.Fields
