import Mathlib.Data.List.Basic
import Mathlib.Logic.Function.Basic

/-!
# Files and an operating system that may fail

A store of files by path, and what the operating system does with each call on a path.
A read error delivers the bytes before it, a write error leaves those that got through.
-/

namespace FortressQL.Lib.Files

abbrev Bytes := List UInt8

abbrev Disk := String → Option Bytes

def Disk.write (files : Disk) (path : String) (content : Bytes) : Disk :=
  Function.update files path (some content)

/-- The calls that succeed. A byte limit of `none` means that no read, or write, fails. -/
structure Host where
  stats : String → Bool
  directory : String → Option Bool
  opens : String → Bool
  creates : String → Bool
  readLimit : String → Option Nat
  writeLimit : String → Option Nat
  closes : String → Bool

def upTo : Option Nat → Bytes → Bytes
  | none, content => content
  | some limit, content => content.take limit

/-- What a loop of `fread` calls gets before the end of the file or an error. -/
def Host.delivered (host : Host) (path : String) (content : Bytes) : Bytes :=
  upTo (host.readLimit path) content

def Host.stored (host : Host) (path : String) (content : Bytes) : Bytes :=
  upTo (host.writeLimit path) content

structure Host.Reliable (host : Host) (path : String) : Prop where
  stats : host.stats path = true
  opens : host.opens path = true
  creates : host.creates path = true
  reads : host.readLimit path = none
  writes : host.writeLimit path = none
  closes : host.closes path = true

def dependableHost : Host :=
  { stats := fun _ => true
    directory := fun _ => some true
    opens := fun _ => true
    creates := fun _ => true
    readLimit := fun _ => none
    writeLimit := fun _ => none
    closes := fun _ => true }

theorem dependable_host_reliable (path : String) : dependableHost.Reliable path :=
  { stats := rfl, opens := rfl, creates := rfl, reads := rfl, writes := rfl, closes := rfl }

theorem Host.Reliable.delivers {host : Host} {path : String} (reliable : host.Reliable path)
    (content : Bytes) : host.delivered path content = content := by
  simp [Host.delivered, reliable.reads, upTo]

theorem Host.Reliable.stores {host : Host} {path : String} (reliable : host.Reliable path)
    (content : Bytes) : host.stored path content = content := by
  simp [Host.stored, reliable.writes, upTo]

@[simp]
theorem write_same (files : Disk) (path : String) (content : Bytes) :
    files.write path content path = some content := by
  simp [Disk.write]

theorem write_other (files : Disk) {path other : String} (content : Bytes)
    (distinct : other ≠ path) : files.write path content other = files other := by
  simp [Disk.write, distinct]

end FortressQL.Lib.Files
