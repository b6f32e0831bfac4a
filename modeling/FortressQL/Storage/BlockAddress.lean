import FortressQL.Storage.BufPage

/-!
# Relation files and block addresses

The identifiers of `relfilelocator.h`, `relpath.h` and `buf_internals.h` that the
page cipher, the write paths and the read path pass around.
-/

namespace FortressQL.Storage.BlockAddress

open Storage.BufPage

abbrev Oid := UInt32

abbrev RelFileNumber := UInt32

inductive ForkNumber where
  | mainForknum
  | fsmForknum
  | visibilitymapForknum
  | initForknum
  deriving DecidableEq, Repr

def ForkNumber.code : ForkNumber → UInt32
  | .mainForknum => 0
  | .fsmForknum => 1
  | .visibilitymapForknum => 2
  | .initForknum => 3

theorem fork_code_injective : Function.Injective ForkNumber.code := by
  intro left right same
  cases left <;> cases right <;> first | rfl | exact absurd same (by decide)

structure RelFileLocator where
  spcOid : Oid
  dbOid : Oid
  relNumber : RelFileNumber
  deriving DecidableEq, Repr

structure BufferTag where
  spcOid : Oid
  dbOid : Oid
  relNumber : RelFileNumber
  forkNum : ForkNumber
  blockNum : BlockNumber
  deriving DecidableEq, Repr

def BufferTag.relFileLocator (tag : BufferTag) : RelFileLocator :=
  { spcOid := tag.spcOid, dbOid := tag.dbOid, relNumber := tag.relNumber }

def initBufferTag (locator : RelFileLocator) (forkNum : ForkNumber) (blockNum : BlockNumber) :
    BufferTag :=
  { spcOid := locator.spcOid, dbOid := locator.dbOid, relNumber := locator.relNumber
    forkNum := forkNum, blockNum := blockNum }

/-- A block of a relation file. Files of a temporary relation carry the number of their backend;
`none` is `INVALID_PROC_NUMBER`. -/
structure FileBlock where
  backend : Option Nat
  tag : BufferTag
  deriving DecidableEq, Repr

def ForkNumber.forkName : ForkNumber → String
  | .mainForknum => "main"
  | .fsmForknum => "fsm"
  | .visibilitymapForknum => "vm"
  | .initForknum => "init"

def globaltablespaceOid : Oid := 1664

def defaulttablespaceOid : Oid := 1663

def tablespaceVersionDirectory : String := "PG_17_202406281"

def getDatabasePath (dbOid spcOid : Oid) : String :=
  if spcOid = globaltablespaceOid then "global"
  else if spcOid = defaulttablespaceOid then s!"base/{dbOid}"
  else s!"pg_tblspc/{spcOid}/{tablespaceVersionDirectory}/{dbOid}"

/-- `GetRelationPath`: the database directory, `t<proc>_` for temporary files, the number and the
fork. -/
def getRelationPath (locator : RelFileLocator) (backend : Option Nat) (fork : ForkNumber) :
    String :=
  let owner :=
    match backend with
    | some proc => if locator.spcOid = globaltablespaceOid then "" else s!"t{proc}_"
    | none => ""
  let suffix := if fork = .mainForknum then "" else s!"_{fork.forkName}"
  s!"{getDatabasePath locator.dbOid locator.spcOid}/{owner}{locator.relNumber}{suffix}"

end FortressQL.Storage.BlockAddress
