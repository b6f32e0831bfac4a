import Mathlib.Data.List.Induction
import Mathlib.Logic.Function.Basic

/-!
# Stores as replays of a write log

A store that returns the last value written at a key is the replay of one log.
-/

namespace FortressQL.Lib.WriteLog

variable {Key Entry Value : Type*} [DecidableEq Key] (key : Entry → Key) (value : Entry → Value)

def replay (store : Key → Option Value) (log : List Entry) : Key → Option Value :=
  log.foldl (fun current entry => Function.update current (key entry) (some (value entry))) store

def lastAt (log : List Entry) (wanted : Key) : Option Entry :=
  log.reverse.find? fun entry => key entry = wanted

theorem replay_append (store : Key → Option Value) (first second : List Entry) :
    replay key value store (first ++ second) =
      replay key value (replay key value store first) second := by
  simp [replay]

theorem replay_last (store : Key → Option Value) (log : List Entry) (wanted : Key)
    (entry : Entry) (last : lastAt key log wanted = some entry) :
    replay key value store log wanted = some (value entry) := by
  induction log using List.reverseRecOn with
  | nil => cases last
  | append_singleton log newest ih =>
    simp only [lastAt, List.reverse_append, List.reverse_singleton, List.singleton_append,
      List.find?_cons] at last
    rw [replay_append]
    change Function.update (replay key value store log) (key newest) (some (value newest)) wanted
      = some (value entry)
    by_cases same : key newest = wanted
    · simp only [same] at last
      cases last
      rw [same, Function.update_self]
    · simp only [same] at last
      rw [Function.update_of_ne (Ne.symm same)]
      exact ih last

theorem last_at_key (log : List Entry) (wanted : Key) (entry : Entry)
    (last : lastAt key log wanted = some entry) : key entry = wanted := by
  simpa using List.find?_some last

end FortressQL.Lib.WriteLog
