import Mathlib.Data.FinEnum
import FortressQL.Pgcrypto.Escrow

/-!
# What too few shares reveal

One share fewer than the threshold is consistent with every secret of its length, each through one
draw of the coefficients.
-/

namespace FortressQL.Pgcrypto.EscrowSecrecy

open List
open Elog Lib.ByteStrings Lib.SecretSharing Pgcrypto.AuditKeys Pgcrypto.Gf256 Pgcrypto.Escrow
open Function

variable {size count : Nat} {keys : List AuditKey}

def sourceOf (drawn : Fin size → Fin count → UInt8) : RandomSource := fun call =>
  some fun index =>
    if bound : call < size ∧ index < count then drawn ⟨call, bound.1⟩ ⟨index, bound.2⟩ else 0

def byteShares (indices : Fin count → UInt8) (secret : Fin size → UInt8)
    (drawn : Fin size → Fin count → UInt8) : Fin count → Fin size → UInt8 :=
  fun i position => gf256PolyEval (secret position :: List.ofFn (drawn position)) (indices i)

def byteElement : UInt8 ≃ Element :=
  { toFun := Element.mk
    invFun := Element.byte
    left_inv := fun _ => rfl
    right_inv := fun _ => rfl }

def tableElements (rows columns : Nat) :
    (Fin rows → Fin columns → UInt8) ≃ (Fin rows → Fin columns → Element) :=
  Equiv.piCongrRight fun _ => Equiv.piCongrRight fun _ => byteElement

theorem byte_shares_eq (indices : Fin count → UInt8) (secret : Fin size → UInt8)
    (drawn : Fin size → Fin count → UInt8) :
    tableElements count size (byteShares indices secret drawn) =
      shareStrings (elements indices) (elements secret) (tableElements size count drawn) := by
  funext i position
  change (⟨gf256PolyEval _ _⟩ : Element) = _
  rw [poly_eval_element, map_cons, map_ofFn]
  rfl

theorem byte_shares_bijective (indices : Fin count → UInt8)
    (distinct : Injective indices) (nonzero : ∀ i, indices i ≠ 0)
    (secret : Fin size → UInt8) : Bijective (byteShares indices secret) := by
  have apart : Injective (elements indices) := Element.mk_injective.comp distinct
  have present (i : Fin count) : elements indices i ≠ 0 := fun zero =>
    nonzero i (Element.mk_injective zero)
  have shared := share_strings_bijective (elements indices) apart present (elements secret)
  have factored : byteShares indices secret = (tableElements count size).symm ∘
      shareStrings (elements indices) (elements secret) ∘ tableElements size count := by
    funext drawn
    rw [comp_apply, comp_apply, ← byte_shares_eq, Equiv.symm_apply_apply]
  rw [factored]
  exact (Equiv.bijective _).comp (shared.comp (Equiv.bijective _))

theorem share_data_source (drawn : Fin size → Fin count → UInt8) (indices : Fin count → UInt8)
    (secret : Fin size → UInt8) (i : Fin count) :
    shareData (sourceOf drawn) (count + 1) (indices i) 0 (ofFn secret) =
      ofFn (byteShares indices secret drawn i) := by
  apply ext_getElem (by simp [shareData])
  intro position _ bound
  have small : position < size := by simpa using bound
  simp [shareData, coefficients, drawnAt, sourceOf, byteShares, small]

def rowsSeen {count : Nat} (chosen : Fin count → Nat) (outcome : Raises (List (Nat × Bytes))) :
    Raises (List (Option (Nat × Bytes))) :=
  outcome.map fun rows => List.ofFn fun i => rows[chosen i]?

theorem rows_seen_of_create {numShares threshold : Int} (secret : Fin size → UInt8)
    (shares : 2 ≤ numShares ∧ numShares ≤ 255) (bounded : 2 ≤ threshold ∧ threshold ≤ numShares)
    (degree : threshold = count + 1)
    (loaded : ∃ key, loadAuditKey keys "pqc" = some key ∧ key.encryptedSecretKey = List.ofFn secret)
    (chosen : Fin count → Nat) (held : ∀ i, chosen i < numShares)
    (drawn : Fin size → Fin count → UInt8) :
    rowsSeen chosen (pqcEscrowCreate true keys (sourceOf drawn) numShares threshold) =
      .ok (List.ofFn fun i => some (chosen i + 1, xCoordinate (chosen i) ::
        List.ofFn (byteShares (fun i => xCoordinate (chosen i)) secret drawn i))) := by
  have creatable : Creatable keys (sourceOf drawn) numShares threshold (List.ofFn secret) :=
    ⟨shares, bounded, loaded, fun _ _ => rfl⟩
  have natural : threshold.toNat = count + 1 := by omega
  rw [escrow_create_returns.mpr ⟨rfl, _, creatable, rfl⟩]
  change Except.ok (List.ofFn _) = _
  congr 2
  funext i
  have bound : chosen i < numShares.toNat := by
    have upper := held i
    omega
  rw [List.getElem?_eq_getElem (by simpa using bound), List.getElem_ofFn, escrowRow, natural,
    ← share_data_source drawn (fun i => xCoordinate (chosen i)) secret i]

theorem bytes_of_fn (bytes : Bytes) (sized : bytes.length = size) :
    ∃ entries : Fin size → UInt8, bytes = ofFn entries := by
  subst sized
  exact ⟨bytes.get, (ofFn_get bytes).symm⟩

theorem unique_draw {indices : Fin count → UInt8} (distinct : Injective indices)
    (nonzero : ∀ i, indices i ≠ 0) {strings : Fin count → Bytes}
    (sized : ∀ i, (strings i).length = size) {secret : Bytes} (secretSize : secret.length = size) :
    ∃! drawn : Fin size → Fin count → UInt8,
      ∀ i, shareData (sourceOf drawn) (count + 1) (indices i) 0 secret = strings i := by
  obtain ⟨secretBytes, rfl⟩ := bytes_of_fn secret secretSize
  choose target same using fun i => bytes_of_fn (strings i) (sized i)
  have consistent (drawn : Fin size → Fin count → UInt8) :
      (∀ i, shareData (sourceOf drawn) (count + 1) (indices i) 0 (ofFn secretBytes) =
        strings i) ↔ byteShares indices secretBytes drawn = target := by
    simp [share_data_source, same, funext_iff]
  simp only [consistent]
  exact (byte_shares_bijective indices distinct nonzero secretBytes).existsUnique target

noncomputable def heldDistribution {count : Nat} (size : Nat) (chosen : Fin count → Nat)
    (keys : List AuditKey) (numShares : Int) : PMF (Raises (List (Option (Nat × Bytes)))) :=
  (PMF.uniformOfFintype (Fin size → Fin count → UInt8)).map fun drawn =>
    rowsSeen chosen (pqcEscrowCreate true keys (sourceOf drawn) numShares (count + 1))

theorem held_distribution_eq {numShares : Int} {key : AuditKey} (shares : numShares ≤ 255)
    (bounded : 2 ≤ count + 1 ∧ count + 1 ≤ numShares) (loaded : loadAuditKey keys "pqc" = some key)
    (sized : key.encryptedSecretKey.length = size) {chosen : Fin count → Nat}
    (held : ∀ i, chosen i < numShares) (distinct : Injective chosen) :
    heldDistribution size chosen keys numShares =
      (PMF.uniformOfFintype (Fin count → Fin size → UInt8)).map fun strings =>
        .ok (ofFn fun i =>
          some (chosen i + 1, xCoordinate (chosen i) :: ofFn (strings i))) := by
  obtain ⟨secret, same⟩ := bytes_of_fn key.encryptedSecretKey sized
  have apart : Injective fun i => xCoordinate (chosen i) := by
    intro left right equal
    have leftBound := held left
    have rightBound := held right
    exact distinct (x_coordinate_injective (by omega) (by omega) equal)
  have nonzero (i : Fin count) : xCoordinate (chosen i) ≠ 0 := by
    intro zero
    have number := congrArg UInt8.toNat zero
    have bound := held i
    simp only [xCoordinate, UInt8.toNat_ofNat', UInt8.toNat_zero] at number
    omega
  have uniform := uniform_map_bijective (byte_shares_bijective _ apart nonzero secret)
  rw [heldDistribution, ← uniform, PMF.map_comp]
  congr 1
  funext drawn
  exact rows_seen_of_create secret (by omega) (by omega) rfl ⟨key, loaded, same⟩ chosen held drawn

/-- Every secret fits one share too few through exactly one draw of the coefficients, and the rows
of two keys of one length are equally distributed. -/
theorem escrow_shares_hide_secret :
    (∀ (size count : Nat) (indices : Fin count → UInt8) (strings : Fin count → Bytes)
        (secret : Bytes), Function.Injective indices → (∀ i, indices i ≠ 0) →
      (∀ i, (strings i).length = size) → secret.length = size →
      ∃! drawn : Fin size → Fin count → UInt8,
        ∀ i, shareData (sourceOf drawn) (count + 1) (indices i) 0 secret = strings i) ∧
    ∀ (size count : Nat) (numShares : Int) (keys otherKeys : List AuditKey)
        (key otherKey : AuditKey) (chosen : Fin count → Nat), numShares ≤ 255 →
      2 ≤ count + 1 ∧ count + 1 ≤ numShares → loadAuditKey keys "pqc" = some key →
      key.encryptedSecretKey.length = size → loadAuditKey otherKeys "pqc" = some otherKey →
      otherKey.encryptedSecretKey.length = size → (∀ i, chosen i < numShares) →
      Function.Injective chosen →
      heldDistribution size chosen keys numShares =
        heldDistribution size chosen otherKeys numShares := by
  constructor
  · intro size count indices strings secret distinct nonzero sized secretSize
    exact unique_draw distinct nonzero sized secretSize
  · intro size count numShares keys otherKeys key otherKey chosen shares bounded loaded sized
      otherLoaded otherSized held distinct
    rw [held_distribution_eq shares bounded loaded sized held distinct,
      held_distribution_eq shares bounded otherLoaded otherSized held distinct]

theorem sample_shares_hide_secret :
    (∃! drawn : Fin 1 → Fin 2 → UInt8,
      ∀ i, shareData (sourceOf drawn) 3 (xCoordinate (i : Fin 2).val) 0 [0x53] = [0x7D]) ∧
    heldDistribution 1 (fun i : Fin 2 => i.val) (sampleKeys [0x53]) 3 =
      heldDistribution 1 (fun i : Fin 2 => i.val) (sampleKeys [0x00]) 3 :=
  ⟨escrow_shares_hide_secret.1 1 2 (fun i => xCoordinate i.val) (fun _ => [0x7D]) [0x53]
      (by decide) (by decide) (by decide) rfl,
    escrow_shares_hide_secret.2 1 2 3 (sampleKeys [0x53]) (sampleKeys [0x00]) _ _
      (fun i => i.val) (by decide) (by decide) rfl rfl rfl rfl (by decide) (by decide)⟩

end FortressQL.Pgcrypto.EscrowSecrecy
