import FortressQL.Elog

/-!
# Access control lists

`acl.c`: the items of a list, each with a grantee, a grantor, privileges and grant options, and the
functions `aclupdate` and `aclnewowner`.
-/

namespace FortressQL.Acl

open Elog

abbrev Oid := UInt32

def aclIdPublic : Oid := 0

/-- The two halves of an `AclMode`. -/
structure Rights where
  privs : BitVec 32
  goptions : BitVec 32
  deriving DecidableEq

def aclNoRights : Rights := ⟨0, 0⟩

namespace Rights

def union (left right : Rights) : Rights :=
  ⟨left.privs ||| right.privs, left.goptions ||| right.goptions⟩

def inter (left right : Rights) : Rights :=
  ⟨left.privs &&& right.privs, left.goptions &&& right.goptions⟩

def diff (left right : Rights) : Rights :=
  ⟨left.privs &&& ~~~right.privs, left.goptions &&& ~~~right.goptions⟩

end Rights

structure AclItem where
  grantee : Oid
  grantor : Oid
  rights : Rights
  deriving DecidableEq

def aclitemMatch (first second : AclItem) : Bool :=
  first.grantee == second.grantee && first.grantor == second.grantor

section Masks

variable (hasPrivsOfRole : Oid → Oid → Bool)

/-- A pass over the items, left as soon as the whole mask is found. -/
def gatherRights (mask : Rights) (counts : Rights → AclItem → Bool) :
    Rights → List AclItem → Rights
  | result, [] => result
  | result, item :: rest =>
    if counts result item then
      let more := result.union (item.rights.inter mask)
      if more = mask then more else gatherRights mask counts more rest
    else gatherRights mask counts result rest

/-- The rights of a role within the mask, `ACLMASK_ALL`. -/
def aclmask (acl : List AclItem) (roleid ownerId : Oid) (mask : Rights) : Rights :=
  if mask = aclNoRights then aclNoRights
  else
    let owned : Rights :=
      if mask.goptions ≠ 0 ∧ hasPrivsOfRole roleid ownerId then ⟨0, mask.goptions⟩
      else aclNoRights
    if owned = mask then owned
    else
      let isDirect : AclItem → Bool := fun item =>
        item.grantee == aclIdPublic || item.grantee == roleid
      let direct := gatherRights mask (fun _ item => isDirect item) owned acl
      if direct = mask then direct
      else
        gatherRights mask
          (fun result item => !isDirect item &&
            item.rights.inter (mask.diff result) ≠ aclNoRights &&
              hasPrivsOfRole roleid item.grantee) direct acl

def heldOptions (acl : List AclItem) (roleid ownerId : Oid) (options : BitVec 32) : BitVec 32 :=
  (aclmask hasPrivsOfRole acl roleid ownerId ⟨0, options⟩).goptions

end Masks

section Changes

inductive Modechg where
  | add
  | del
  | eql
  deriving DecidableEq

inductive DropBehavior where
  | restrict
  | cascade
  deriving DecidableEq

def Modechg.apply (modechg : Modechg) (old mod : Rights) : Rights :=
  match modechg with
  | .add => old.union mod
  | .del => old.diff mod
  | .eql => mod

def currentRights (mod : AclItem) : List AclItem → Rights
  | [] => aclNoRights
  | item :: rest => if aclitemMatch mod item then item.rights else currentRights mod rest

def emitItem (item : AclItem) (rights : Rights) (rest : List AclItem) : List AclItem :=
  if rights = aclNoRights then rest else { item with rights := rights } :: rest

/-- The item is changed in its place or added at the end, and removed where no right is left. -/
def changeItem (mod : AclItem) (modechg : Modechg) : List AclItem → List AclItem
  | [] => emitItem mod (modechg.apply aclNoRights mod.rights) []
  | item :: rest =>
    if aclitemMatch mod item then emitItem item (modechg.apply item.rights mod.rights) rest
    else item :: changeItem mod modechg rest

def grantedBack : ErrorReport :=
  { elevel := .error
    errcode := .invalidGrantOperation
    errmsg := "grant options cannot be granted back to your own grantor" }

def dependentPrivileges : ErrorReport :=
  { elevel := .error
    errcode := .dependentObjectsStillExist
    errmsg := "dependent privileges exist"
    errhint := "Use CASCADE to revoke them too." }

inductive Stop where
  | outOfFuel
  | assertion
  | raised (report : ErrorReport)
  deriving DecidableEq

variable (hasPrivsOfRole : Oid → Oid → Bool)

mutual

/-- The fuel bounds the depth of the calls and the restarts of their loops. -/
def aclupdate (fuel : Nat) (oldAcl : List AclItem) (mod : AclItem) (modechg : Modechg)
    (ownerId : Oid) (behavior : DropBehavior) : Except Stop (List AclItem) :=
  match fuel with
  | 0 => .error .outOfFuel
  | fuel + 1 =>
    let checked : Except Stop Unit :=
      if modechg ≠ .del ∧ mod.rights.goptions ≠ 0 then checkCircularity fuel oldAcl mod ownerId
      else .ok ()
    checked >>= fun _ =>
      let old := currentRights mod oldAcl
      let lost := old.goptions &&& ~~~(modechg.apply old mod.rights).goptions
      let newAcl := changeItem mod modechg oldAcl
      if lost = 0 then .ok newAcl
      else if mod.grantee = aclIdPublic then .error .assertion
      else recursiveRevoke fuel newAcl mod.grantee lost ownerId behavior

def checkCircularity (fuel : Nat) (oldAcl : List AclItem) (mod : AclItem) (ownerId : Oid) :
    Except Stop Unit :=
  match fuel with
  | 0 => .error .outOfFuel
  | fuel + 1 =>
    if mod.grantee = aclIdPublic then .error .assertion
    else if mod.grantor = ownerId then .ok ()
    else do
      let acl ← circularityRestart fuel oldAcl mod.grantee ownerId
      let ownPrivs := heldOptions hasPrivsOfRole acl mod.grantor ownerId mod.rights.goptions
      if mod.rights.goptions &&& ~~~ownPrivs ≠ 0 then .error (.raised grantedBack) else .ok ()

/-- The loop at `cc_restart`: takes away the grant options of a role and what depends on them. -/
def circularityRestart (fuel : Nat) (acl : List AclItem) (grantee ownerId : Oid) :
    Except Stop (List AclItem) :=
  match fuel with
  | 0 => .error .outOfFuel
  | fuel + 1 =>
    match acl.find? fun item => item.grantee == grantee && item.rights.goptions != 0 with
    | none => .ok acl
    | some item => do
        let newAcl ← aclupdate fuel acl item .del ownerId .cascade
        circularityRestart fuel newAcl grantee ownerId

def recursiveRevoke (fuel : Nat) (acl : List AclItem) (grantee : Oid) (revokePrivs : BitVec 32)
    (ownerId : Oid) (behavior : DropBehavior) : Except Stop (List AclItem) :=
  match fuel with
  | 0 => .error .outOfFuel
  | fuel + 1 =>
    if grantee = ownerId then .ok acl
    else
      let remaining :=
        revokePrivs &&& ~~~heldOptions hasPrivsOfRole acl grantee ownerId revokePrivs
      if remaining = 0 then .ok acl
      else revokeRestart fuel acl grantee remaining ownerId behavior

/-- The loop at `restart`: takes away what a role granted of the rights it may no longer grant. -/
def revokeRestart (fuel : Nat) (acl : List AclItem) (grantee : Oid) (revokePrivs : BitVec 32)
    (ownerId : Oid) (behavior : DropBehavior) : Except Stop (List AclItem) :=
  match fuel with
  | 0 => .error .outOfFuel
  | fuel + 1 =>
    match acl.find? fun item =>
        item.grantor == grantee && item.rights.privs &&& revokePrivs != 0 with
    | none => .ok acl
    | some item =>
      if behavior = .restrict then .error (.raised dependentPrivileges)
      else do
        let newAcl ← aclupdate fuel acl
          { grantee := item.grantee, grantor := grantee, rights := ⟨revokePrivs, revokePrivs⟩ }
          .del ownerId behavior
        revokeRestart fuel newAcl grantee revokePrivs ownerId behavior

end

end Changes

def substituteRole (oldOwnerId newOwnerId role : Oid) : Oid :=
  if role = oldOwnerId then newOwnerId else role

def substituteOwner (oldOwnerId newOwnerId : Oid) (item : AclItem) : AclItem :=
  { item with
    grantee := substituteRole oldOwnerId newOwnerId item.grantee
    grantor := substituteRole oldOwnerId newOwnerId item.grantor }

def newPresent (oldOwnerId newOwnerId : Oid) (item : AclItem) : Bool :=
  (item.grantor != oldOwnerId && item.grantor == newOwnerId) ||
    (item.grantee != oldOwnerId && item.grantee == newOwnerId)

/-- Collects the later items of the same grantee and grantor and leaves them without rights. -/
def absorb (target : AclItem) : List AclItem → AclItem × List AclItem
  | [] => (target, [])
  | item :: rest =>
    if item.rights ≠ aclNoRights ∧ aclitemMatch target item then
      let absorbed := absorb { target with rights := target.rights.union item.rights } rest
      (absorbed.1, { item with rights := aclNoRights } :: absorbed.2)
    else
      let absorbed := absorb target rest
      (absorbed.1, item :: absorbed.2)

theorem absorb_length (target : AclItem) (items : List AclItem) :
    (absorb target items).2.length = items.length := by
  induction items generalizing target with
  | nil => rfl
  | cons item rest ih =>
    unfold absorb
    split
    · exact congrArg (· + 1) (ih _)
    · exact congrArg (· + 1) (ih _)

def mergeDuplicates : List AclItem → List AclItem
  | [] => []
  | target :: rest =>
    if target.rights = aclNoRights then mergeDuplicates rest
    else (absorb target rest).1 :: mergeDuplicates (absorb target rest).2
termination_by items => items.length
decreasing_by
  · exact Nat.lt_succ_self _
  · rw [absorb_length]
    exact Nat.lt_succ_self _

def aclnewowner (oldAcl : List AclItem) (oldOwnerId newOwnerId : Oid) : List AclItem :=
  let newAcl := oldAcl.map (substituteOwner oldOwnerId newOwnerId)
  if oldAcl.any (newPresent oldOwnerId newOwnerId) then mergeDuplicates newAcl else newAcl

end FortressQL.Acl
