import FortressQL.Lib.SecretSharing
import FortressQL.Pgcrypto.AuditKeys
import FortressQL.Pgcrypto.Gf256

/-!
# Key escrow

`pqc_escrow_create` shares the active secret key byte by byte, `pqc_escrow_recover` interpolates.
Too few shares give an unrelated string: the threshold is not part of a share.
-/

namespace FortressQL.Pgcrypto.Escrow

open List Elog Lib.ByteStrings Lib.SecretSharing Pgcrypto.AuditKeys Pgcrypto.Gf256 Element Function

variable {threshold numShares position : Nat} {shares : List (Option Bytes)}

def gf256PolyEvalLoop (x : UInt8) : Bytes → UInt8 → UInt8 → UInt8
  | [], _, result => result
  | coeff :: rest, xPower, result =>
    gf256PolyEvalLoop x rest (if rest = [] then xPower else gf256Mul xPower x)
      (result ^^^ gf256Mul coeff xPower)

def gf256PolyEval (coeffs : Bytes) (x : UInt8) : UInt8 := gf256PolyEvalLoop x coeffs 1 0

def fractionRound {n : Nat} (xs : Fin n → UInt8) (i : Fin n) (fraction : UInt8 × UInt8)
    (j : Fin n) : UInt8 × UInt8 :=
  if i = j then fraction
  else (gf256Mul fraction.1 (xs j), gf256Mul fraction.2 (xs i ^^^ xs j))

def lagrangeRound {n : Nat} (xs ys : Fin n → UInt8) (secret : UInt8) (i : Fin n) :
    Raises UInt8 := do
  let fraction := (List.finRange n).foldl (fractionRound xs i) (1, 1)
  let weight ← gf256Div fraction.1 fraction.2
  return secret ^^^ gf256Mul (ys i) weight

def gf256LagrangeInterpolate {n : Nat} (xs ys : Fin n → UInt8) : Raises UInt8 :=
  (List.finRange n).foldlM (lagrangeRound xs ys) 0

def insufficientPrivilege (errmsg : String) : ErrorReport :=
  { elevel := .error
    errcode := .insufficientPrivilege
    errmsg := errmsg }

def invalidParameter (errmsg : String) : ErrorReport :=
  { elevel := .error
    errcode := .invalidParameterValue
    errmsg := errmsg }

def noActiveKey : ErrorReport :=
  { elevel := .error
    errcode := .objectNotInPrerequisiteState
    errmsg := "no active PQC key found for escrow"
    errhint := "Run SELECT pqc_audit_init_keys() first." }

def randomCoefficientsFailed : ErrorReport :=
  { elevel := .error
    errcode := .internalError
    errmsg := "failed to generate random coefficients" }

/-- The byte of each call of `RAND_bytes` at each position, or a return of zero. A return of -1
passes, and leaves what the buffer held. -/
abbrev RandomSource := Nat → Option (Nat → UInt8)

variable {rand : RandomSource}

def coefficients (byte : UInt8) (threshold : Nat) (drawn : Nat → UInt8) : Bytes :=
  byte :: List.ofFn fun index : Fin (threshold - 1) => drawn index

def xCoordinate (i : Nat) : UInt8 := UInt8.ofNat (i + 1)

/-- The loop over the bytes of the key, from the given call of the random source on. -/
def shareBytes (rand : RandomSource) (threshold : Nat) {numShares : Nat} :
    Nat → Bytes → (Fin numShares → Bytes) → Raises (Fin numShares → Bytes)
  | _, [], shares => .ok shares
  | call, byte :: rest, shares =>
    match rand call with
    | none => .error randomCoefficientsFailed
    | some drawn =>
      shareBytes rand threshold (call + 1) rest fun i =>
        shares i ++ [gf256PolyEval (coefficients byte threshold drawn) (xCoordinate i)]

/-- The source reads the key from a buffer of the SPI context, after `SPI_finish`; the buffer is
taken to keep its content. -/
def pqcEscrowCreate (superuser : Bool) (keys : List AuditKey) (rand : RandomSource)
    (numShares threshold : Int) : Raises (List (Nat × Bytes)) := do
  ensure (superuser = true)
    (insufficientPrivilege "must be superuser to create key escrow shares")
  ensure (2 ≤ numShares ∧ numShares ≤ 255)
    (invalidParameter "num_shares must be between 2 and 255")
  ensure (2 ≤ threshold ∧ threshold ≤ numShares)
    (invalidParameter "threshold must be between 2 and num_shares")
  match loadAuditKey keys "pqc" with
  | none => .error noActiveKey
  | some key => do
      let shares ← shareBytes rand threshold.toNat 0 key.encryptedSecretKey
        fun i : Fin numShares.toNat => [xCoordinate i]
      return List.ofFn fun i => (i.val + 1, shares i)

def nullShare : ErrorReport :=
  { elevel := .error
    errcode := .nullValueNotAllowed
    errmsg := "shares must not contain NULL values" }

def shareTooShort (position : Nat) : ErrorReport :=
  invalidParameter s!"share {position} is too short"

/-- The checks of the array's elements, from the given position on. -/
def extractShares : Nat → List (Option Bytes) → Raises (List Bytes)
  | _, [] => .ok []
  | _, none :: _ => .error nullShare
  | position, some share :: rest => do
      ensure (2 ≤ share.length) (shareTooShort position)
      let extracted ← extractShares (position + 1) rest
      return share :: extracted

def recoverByte (shareData : List Bytes) (byteIdx : Nat) : Raises UInt8 :=
  gf256LagrangeInterpolate (fun i : Fin shareData.length => shareData[i].getD 0 0)
    (fun i => shareData[i].getD (1 + byteIdx) 0)

def pqcEscrowRecover (superuser : Bool) (shares : List (Option Bytes)) :
    Raises (String × Bytes) := do
  ensure (superuser = true) (insufficientPrivilege "must be superuser to recover escrowed keys")
  ensure (2 ≤ shares.length) (invalidParameter "at least 2 shares are required for recovery")
  let shareData ← extractShares 1 shares
  let secretLen := (shareData.headD []).length - 1
  ensure (∀ share ∈ shareData, share.length - 1 = secretLen)
    (invalidParameter "all shares must have the same length")
  let recovered ← (List.range secretLen).mapM (recoverByte shareData)
  return ("success", recovered)

theorem poly_eval_loop_element (x : UInt8) (coeffs : Bytes) (xPower result : UInt8) :
    (⟨gf256PolyEvalLoop x coeffs xPower result⟩ : Element) =
      ⟨result⟩ + ⟨xPower⟩ * evalCoefficients ⟨x⟩ (coeffs.map mk) := by
  induction coeffs generalizing xPower result with
  | nil => simp [gf256PolyEvalLoop, evalCoefficients]
  | cons coeff rest ih =>
    rw [gf256PolyEvalLoop, ih, map_cons, evalCoefficients, mk_xor, mk_gf256_mul]
    by_cases last : rest = []
    · simp only [last, map_nil, evalCoefficients]
      ring
    · simp only [if_neg last, mk_gf256_mul]
      ring

theorem poly_eval_element (coeffs : Bytes) (x : UInt8) :
    (⟨gf256PolyEval coeffs x⟩ : Element) = evalCoefficients ⟨x⟩ (coeffs.map mk) := by
  have evaluated := poly_eval_loop_element x coeffs 1 0
  have start : (⟨0⟩ : Element) = 0 := rfl
  have unit : (⟨1⟩ : Element) = 1 := rfl
  rwa [start, unit, zero_add, one_mul] at evaluated

section Interpolation

variable {n : Nat} (xs ys : Fin n → UInt8)

def elements (bytes : Fin n → UInt8) : Fin n → Element := fun i => ⟨bytes i⟩

theorem fraction_fold (i : Fin n) (indices : List (Fin n)) (fraction : UInt8 × UInt8) :
    (⟨(indices.foldl (fractionRound xs i) fraction).1⟩ : Element) = ⟨fraction.1⟩ *
        (indices.map fun j => if i = j then 1 else 0 - elements xs j).prod ∧
      (⟨(indices.foldl (fractionRound xs i) fraction).2⟩ : Element) = ⟨fraction.2⟩ *
        (indices.map fun j => if i = j then 1 else elements xs i - elements xs j).prod := by
  induction indices generalizing fraction with
  | nil => simp
  | cons j rest ih =>
    obtain ⟨numerator, denominator⟩ := ih (fractionRound xs i fraction j)
    rw [foldl_cons, numerator, denominator, map_cons, map_cons, prod_cons, prod_cons]
    by_cases same : i = j
    · simp [fractionRound, same]
    · simp only [fractionRound, if_neg same, mk_gf256_mul, mk_xor, sub_eq,
        zero_add, elements, mul_assoc, and_self]

theorem lagrange_round_returns (distinct : Injective xs) (secret : UInt8) (i : Fin n) :
    ∃ next, lagrangeRound xs ys secret i = .ok next ∧
      (⟨next⟩ : Element) = ⟨secret⟩ + elements ys i * weightAtZero (elements xs) i := by
  obtain ⟨numerator, denominator⟩ := fraction_fold xs i (finRange n) (1, 1)
  have unit : (⟨1⟩ : Element) = 1 := rfl
  rw [unit, one_mul] at numerator denominator
  have nonzero : ((finRange n).foldl (fractionRound xs i) (1, 1)).2 ≠ 0 := by
    intro zero
    rw [zero] at denominator
    refine weight_denominator_ne_zero (elements xs) ?_ i denominator.symm
    intro left right same
    exact distinct (mk_injective same)
  refine ⟨secret ^^^ gf256Mul (ys i) (gf256Mul
    ((finRange n).foldl (fractionRound xs i) (1, 1)).1 (gf256Power254
      ((finRange n).foldl (fractionRound xs i) (1, 1)).2)), ?_, ?_⟩
  · simp only [lagrangeRound, gf256_div_returns nonzero]
    rfl
  · rw [mk_xor, mk_gf256_mul, mk_gf256_mul, mk_gf256_power254, numerator, denominator]
    rfl

theorem lagrange_fold_returns (distinct : Injective xs) (indices : List (Fin n))
    (secret : UInt8) : ∃ result, indices.foldlM (lagrangeRound xs ys) secret = .ok result ∧
      (⟨result⟩ : Element) = ⟨secret⟩ +
        (indices.map fun i => elements ys i * weightAtZero (elements xs) i).sum := by
  induction indices generalizing secret with
  | nil => exact ⟨secret, rfl, by simp⟩
  | cons i rest ih =>
    obtain ⟨next, stepped, value⟩ := lagrange_round_returns xs ys distinct secret i
    obtain ⟨result, folded, total⟩ := ih next
    refine ⟨result, ?_, ?_⟩
    · rw [foldlM_cons, stepped]
      exact folded
    · rw [total, value, map_cons, sum_cons, add_assoc]

theorem interpolate_returns (distinct : Injective xs) :
    gf256LagrangeInterpolate xs ys = .ok (valueAtZero (elements xs) (elements ys)).byte := by
  obtain ⟨result, folded, total⟩ := lagrange_fold_returns xs ys distinct (finRange n) 0
  have start : (⟨0⟩ : Element) = 0 := rfl
  rw [start, zero_add, ← Fin.sum_univ_def] at total
  rw [gf256LagrangeInterpolate, folded, valueAtZero, ← total]

end Interpolation

def drawnAt (rand : RandomSource) (call : Nat) : Nat → UInt8 := (rand call).getD fun _ => 0

def shareData (rand : RandomSource) (threshold : Nat) (x : UInt8) (call : Nat) (secret : Bytes) :
    Bytes :=
  secret.mapIdx fun position byte =>
    gf256PolyEval (coefficients byte threshold (drawnAt rand (call + position))) x

theorem share_data_cons (rand : RandomSource) (threshold : Nat) (x : UInt8) (call : Nat)
    (byte : UInt8) (rest : Bytes) :
    shareData rand threshold x call (byte :: rest) =
      gf256PolyEval (coefficients byte threshold (drawnAt rand call)) x ::
        shareData rand threshold x (call + 1) rest := by
  have shift (position : Nat) : call + 1 + position = call + (position + 1) := by omega
  simp [shareData, shift]

theorem share_bytes_returns {call : Nat} {secret : Bytes} {shares result : Fin numShares → Bytes} :
    shareBytes rand threshold call secret shares = .ok result ↔
      (∀ position < secret.length, (rand (call + position)).isSome) ∧
        result = fun i => shares i ++ shareData rand threshold (xCoordinate i) call secret := by
  induction secret generalizing call shares with
  | nil =>
    constructor
    · rintro ⟨⟩
      simp [shareData]
    · rintro ⟨-, rfl⟩
      simp [shareBytes, shareData]
  | cons byte rest ih =>
    have calls : (∀ position < (byte :: rest).length, (rand (call + position)).isSome) ↔
        (rand call).isSome ∧ ∀ position < rest.length, (rand (call + 1 + position)).isSome := by
      have shift (position : Nat) : call + 1 + position = call + (position + 1) := by omega
      rw [length_cons, Nat.forall_lt_succ_left]
      simp [shift]
    rw [calls]
    cases drawn : rand call with
    | none => simp [shareBytes, drawn]
    | some bytes =>
      have used : drawnAt rand call = bytes := by rw [drawnAt, drawn, Option.getD_some]
      simp [shareBytes, drawn, ih, share_data_cons, used]

def escrowRow (rand : RandomSource) (threshold : Nat) (secret : Bytes) (i : Nat) : Nat × Bytes :=
  (i + 1, xCoordinate i :: shareData rand threshold (xCoordinate i) 0 secret)

structure Creatable (keys : List AuditKey) (rand : RandomSource) (numShares threshold : Int)
    (secret : Bytes) : Prop where
  shares : 2 ≤ numShares ∧ numShares ≤ 255
  bounded : 2 ≤ threshold ∧ threshold ≤ numShares
  loaded : ∃ key, loadAuditKey keys "pqc" = some key ∧ key.encryptedSecretKey = secret
  drawn : ∀ position < secret.length, (rand position).isSome

theorem escrow_create_returns {superuser : Bool} {keys : List AuditKey}
    {numShares threshold : Int} {rows : List (Nat × Bytes)} :
    pqcEscrowCreate superuser keys rand numShares threshold = .ok rows ↔
      superuser = true ∧ ∃ secret, Creatable keys rand numShares threshold secret ∧
        rows = ofFn fun i : Fin numShares.toNat =>
          escrowRow rand threshold.toNat secret i := by
  simp only [pqcEscrowCreate, sequence_returns, ensure_returns, exists_const]
  cases found : loadAuditKey keys "pqc" with
  | none =>
    simp only [reduceCtorEq, and_false, false_iff, not_and, not_exists]
    intro _ secret creatable
    obtain ⟨key, loaded, -⟩ := creatable.loaded
    simp [found] at loaded
  | some key =>
    simp only [sequence_returns, share_bytes_returns, zero_add]
    constructor
    · rintro ⟨privileged, shares, bounded, -, ⟨drawn, rfl⟩, same⟩
      refine ⟨privileged, key.encryptedSecretKey, ⟨shares, bounded, ⟨key, found, rfl⟩, drawn⟩, ?_⟩
      exact (Except.ok.inj same).symm
    · rintro ⟨privileged, secret, creatable, rfl⟩
      obtain ⟨other, loaded, rfl⟩ := creatable.loaded
      rw [found] at loaded
      cases loaded
      exact ⟨privileged, creatable.shares, creatable.bounded, _, ⟨creatable.drawn, rfl⟩, rfl⟩

theorem extract_shares_returns (position : Nat) (shares : List Bytes)
    (long : ∀ share ∈ shares, 2 ≤ share.length) :
    extractShares position (shares.map some) = .ok shares := by
  induction shares generalizing position with
  | nil => rfl
  | cons share rest ih =>
    rw [forall_mem_cons] at long
    rw [map_cons, extractShares, ensure_holds long.1, ih (position + 1) long.2]
    rfl

theorem extract_shares_long {extracted : List Bytes}
    (returned : extractShares position shares = .ok extracted) :
    ∀ share, some share ∈ shares → 2 ≤ share.length := by
  induction shares generalizing position extracted with
  | nil => simp
  | cons first rest ih =>
    cases first with
    | none => simp [extractShares] at returned
    | some bytes =>
      simp only [extractShares, sequence_returns, ensure_returns] at returned
      obtain ⟨_, long, others, remaining, -⟩ := returned
      intro share member
      rcases mem_cons.mp member with same | later
      · rw [Option.some.inj same]
        exact long
      · exact ih remaining share later

theorem escrow_recover_checked {superuser : Bool} {result : String × Bytes}
    (returned : pqcEscrowRecover superuser shares = .ok result) :
    superuser = true ∧ 2 ≤ shares.length ∧ ∀ share, some share ∈ shares → 2 ≤ share.length := by
  simp only [pqcEscrowRecover, sequence_returns, ensure_returns] at returned
  obtain ⟨_, privileged, _, two, extracted, checked, -⟩ := returned
  exact ⟨privileged, two, extract_shares_long checked⟩

def coordinate (shares : List Bytes) (i : Fin shares.length) : UInt8 := shares[i].getD 0 0

def byteOf (shares : List Bytes) (position : Nat) (i : Fin shares.length) : UInt8 :=
  shares[i].getD (1 + position) 0

theorem escrow_recover_returns {shares : List Bytes} {secretLen : Nat} (two : 2 ≤ shares.length)
    (sized : ∀ share ∈ shares, share.length = secretLen + 1) (nonempty : 0 < secretLen)
    (distinct : Injective (coordinate shares)) :
    pqcEscrowRecover true (shares.map some) =
      .ok ("success", (List.range secretLen).map fun position =>
        (valueAtZero (elements (coordinate shares)) (elements (byteOf shares position))).byte) := by
  have long : ∀ share ∈ shares, 2 ≤ share.length := by
    intro share member
    rw [sized share member]
    omega
  have first : (shares.headD []).length - 1 = secretLen := by
    cases shares with
    | nil => simp at two
    | cons share rest => simp [sized share]
  have same : ∀ share ∈ shares, share.length - 1 = secretLen := by
    intro share member
    rw [sized share member, Nat.add_sub_cancel]
  have recovers (position : Nat) := interpolate_returns (coordinate shares)
    (byteOf shares position) distinct
  rw [pqcEscrowRecover, ensure_holds rfl, ok_then, ensure_holds (by simpa using two), ok_then,
    extract_shares_returns 1 shares long, ok_then]
  simp only [first, ensure_holds same]
  have bytes : (List.range secretLen).mapM (recoverByte shares) =
      .ok ((List.range secretLen).map fun position => (valueAtZero (elements (coordinate shares))
        (elements (byteOf shares position))).byte) := by
    rw [map_m_returns, forall₂_map_right_iff, forall₂_same]
    intro position _
    exact recovers position
  rw [bytes]
  rfl

section Chosen

variable {secret : Bytes} {chosen : List (Nat × Bytes)}

structure Choice (rand : RandomSource) (numShares threshold : Nat) (secret : Bytes)
    (chosen : List (Nat × Bytes)) : Prop where
  distinct : (chosen.map Prod.fst).Nodup
  created : ∀ row ∈ chosen, row ∈ List.ofFn fun i : Fin numShares =>
    escrowRow rand threshold secret i

theorem Choice.row (choice : Choice rand numShares threshold secret chosen) {row : Nat × Bytes}
    (member : row ∈ chosen) :
    ∃ i < numShares, row = escrowRow rand threshold secret i := by
  obtain ⟨i, same⟩ := mem_ofFn.mp (choice.created row member)
  exact ⟨i, i.isLt, same.symm⟩

theorem x_coordinate_injective {i j : Nat} (iBound : i < 255) (jBound : j < 255)
    (same : xCoordinate i = xCoordinate j) : i = j := by
  have numbers := congrArg UInt8.toNat same
  simp only [xCoordinate, UInt8.toNat_ofNat'] at numbers
  omega

section

variable (choice : Choice rand numShares threshold secret chosen)

include choice

theorem Choice.coordinate_eq (i : Fin (chosen.map Prod.snd).length)
    (bound : i.val < chosen.length) :
    coordinate (chosen.map Prod.snd) i = UInt8.ofNat chosen[i.val].1 := by
  obtain ⟨index, -, same⟩ := choice.row (getElem_mem bound)
  simp [coordinate, same, escrowRow, xCoordinate]

theorem Choice.coordinate_injective (small : numShares ≤ 255) :
    Injective (coordinate (chosen.map Prod.snd)) := by
  intro i j same
  have iBound : i.val < chosen.length := by simpa using i.isLt
  have jBound : j.val < chosen.length := by simpa using j.isLt
  obtain ⟨left, leftBound, leftRow⟩ := choice.row (getElem_mem iBound)
  obtain ⟨right, rightBound, rightRow⟩ := choice.row (getElem_mem jBound)
  rw [choice.coordinate_eq i iBound, choice.coordinate_eq j jBound, leftRow, rightRow] at same
  have indices := x_coordinate_injective (by omega) (by omega) same
  have firsts : (chosen.map Prod.fst)[i.val] = (chosen.map Prod.fst)[j.val] := by
    simp [leftRow, rightRow, indices]
  exact Fin.ext (choice.distinct.getElem_inj_iff.mp firsts)

theorem Choice.sized : ∀ share ∈ chosen.map Prod.snd, share.length = secret.length + 1 := by
  intro share member
  obtain ⟨row, rowMember, rfl⟩ := mem_map.mp member
  obtain ⟨-, -, rfl⟩ := choice.row rowMember
  simp [escrowRow, shareData]

theorem Choice.byte_of (bound : position < secret.length) :
    elements (byteOf (chosen.map Prod.snd) position) = fun i => evalCoefficients
      (elements (coordinate (chosen.map Prod.snd)) i)
      (⟨secret[position]⟩ :: ofFn fun index : Fin (threshold - 1) =>
        ⟨drawnAt rand position index⟩) := by
  funext i
  have iBound : i.val < chosen.length := by simpa using i.isLt
  obtain ⟨index, -, same⟩ := choice.row (getElem_mem iBound)
  have x : coordinate (chosen.map Prod.snd) i = xCoordinate index := by
    rw [choice.coordinate_eq i iBound, same]
    rfl
  have y : byteOf (chosen.map Prod.snd) position i =
      gf256PolyEval (coefficients secret[position] threshold (drawnAt rand position))
        (xCoordinate index) := by
    simp [byteOf, same, escrowRow, shareData, add_comm 1, bound]
  rw [elements, elements, x, y, poly_eval_element, coefficients, map_cons, map_ofFn]
  rfl

end

def shareArray (chosen : List (Nat × Bytes)) : List (Option Bytes) :=
  chosen.map fun row => some row.2

theorem share_array_eq (chosen : List (Nat × Bytes)) :
    shareArray chosen = (chosen.map Prod.snd).map some := by
  rw [map_map]
  rfl

theorem Choice.recover_returns (choice : Choice rand numShares threshold secret chosen)
    (small : numShares ≤ 255) (two : 2 ≤ chosen.length) (nonempty : secret ≠ []) :
    pqcEscrowRecover true (shareArray chosen) =
      .ok ("success", (List.range secret.length).map fun position =>
        (valueAtZero (elements (coordinate (chosen.map Prod.snd)))
          (elements (byteOf (chosen.map Prod.snd) position))).byte) := by
  rw [share_array_eq]
  exact escrow_recover_returns (by simpa using two) choice.sized
    (length_pos_iff.mpr nonempty) (choice.coordinate_injective small)

theorem Choice.recovers (choice : Choice rand numShares threshold secret chosen)
    (small : numShares ≤ 255) (enough : threshold ≤ chosen.length) (two : 2 ≤ threshold)
    (nonempty : secret ≠ []) :
    pqcEscrowRecover true (shareArray chosen) = .ok ("success", secret) := by
  rw [choice.recover_returns small (by omega) nonempty]
  have bytes : ((List.range secret.length).map fun position =>
      (valueAtZero (elements (coordinate (chosen.map Prod.snd)))
        (elements (byteOf (chosen.map Prod.snd) position))).byte) = secret := by
    apply ext_getElem (by simp)
    intro position _ bound
    have apart : Injective (elements (coordinate (chosen.map Prod.snd))) :=
      mk_injective.comp (choice.coordinate_injective small)
    rw [getElem_map, getElem_range, choice.byte_of bound, recovered_constant _ apart]
    simp only [length_ofFn, length_map]
    omega
  rw [bytes]

end Chosen

def sampleKeys (secret : Bytes) : List AuditKey := [⟨2, "pqc", "ML-DSA-65", [], secret, true⟩]

def sampleRandom : RandomSource := fun call => some fun index => UInt8.ofNat (call + index + 7)

theorem sample_creatable (secret : Bytes) (numShares threshold : Int)
    (shares : 2 ≤ numShares ∧ numShares ≤ 255) (bounded : 2 ≤ threshold ∧ threshold ≤ numShares) :
    Creatable (sampleKeys secret) sampleRandom numShares threshold secret :=
  ⟨shares, bounded, ⟨_, rfl, rfl⟩, fun _ _ => rfl⟩

/-- Of too few rows the recovery refuses a single one, and those of an empty key. -/
theorem too_few_shares_refused_iff {superuser : Bool} {keys : List AuditKey} {rand : RandomSource}
    {numShares threshold : Int} {rows chosen : List (Nat × Bytes)} {key : AuditKey}
    (created : pqcEscrowCreate superuser keys rand numShares threshold = .ok rows)
    (loaded : loadAuditKey keys "pqc" = some key) (distinct : (chosen.map Prod.fst).Nodup)
    (members : ∀ row ∈ chosen, row ∈ rows) (present : chosen ≠ []) (few : chosen.length < threshold)
    (recoverer : Bool) :
    (∃ report, pqcEscrowRecover recoverer (shareArray chosen) = .error report) ↔
      recoverer = false ∨ chosen.length = 1 ∨ key.encryptedSecretKey = [] := by
  obtain ⟨-, secret, creatable, rfl⟩ := escrow_create_returns.mp created
  have secretLoaded : key.encryptedSecretKey = secret := by
    obtain ⟨other, found, same⟩ := creatable.loaded
    rw [loaded] at found
    rw [← same, Option.some.inj found]
  have shares := creatable.shares
  have choice : Choice rand numShares.toNat threshold.toNat secret chosen := ⟨distinct, members⟩
  have length : (shareArray chosen).length = chosen.length := length_map _
  rw [secretLoaded]
  have positive := length_pos_iff.mpr present
  constructor
  · rintro ⟨report, refused⟩
    by_contra accepted
    simp only [not_or, Bool.not_eq_false] at accepted
    obtain ⟨privileged, several, nonempty⟩ := accepted
    rw [privileged, choice.recover_returns (by omega) (by omega) nonempty] at refused
    cases refused
  · intro condition
    cases outcome : pqcEscrowRecover recoverer (shareArray chosen) with
    | error report => exact ⟨report, rfl⟩
    | ok result =>
      obtain ⟨privileged, two, long⟩ := escrow_recover_checked outcome
      rcases condition with unprivileged | single | empty
      · simp [unprivileged] at privileged
      · omega
      · obtain ⟨row, rest, rfl⟩ := exists_cons_of_ne_nil present
        have size := choice.sized row.2 (by simp)
        have minimum := long row.2 (by simp [shareArray])
        simp only [empty, length_nil] at size
        omega

def sampleRows : List (Nat × Bytes) := [(1, [1, 0x5C]), (2, [2, 0x7D]), (3, [3, 0x72])]

theorem sample_rows_created :
    pqcEscrowCreate true (sampleKeys [0x53]) sampleRandom 3 3 = .ok sampleRows := by
  decide +kernel

theorem too_few_sample_shares_refused :
    (∃ report, pqcEscrowRecover true (shareArray [(2, [2, 0x7D])]) = .error report) ↔
      true = false ∨ [((2, [2, 0x7D]) : Nat × Bytes)].length = 1 ∨ ([0x53] : Bytes) = [] :=
  too_few_shares_refused_iff sample_rows_created
    (Eq.refl (loadAuditKey (sampleKeys [0x53]) "pqc")) (by decide) (by decide) (by decide)
    (by decide) true

/-- Two shares of an escrow with threshold three: the recovery reports success with a byte
that is not the key. -/
theorem two_of_three_shares_accepted :
    pqcEscrowCreate true (sampleKeys [0x53]) sampleRandom 3 3 = .ok sampleRows ∧
      pqcEscrowRecover true (shareArray (sampleRows.take 2)) = .ok ("success", [0x43]) :=
  ⟨sample_rows_created, by decide +kernel⟩

end FortressQL.Pgcrypto.Escrow
