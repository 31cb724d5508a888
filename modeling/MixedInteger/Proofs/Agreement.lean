import MixedInteger.Proofs.Path

/-!
# File systems that agree beside some paths

Two file systems may differ in the files at some paths and nowhere else.  They then have
the same directories, so that every path leads to the same place in both, and an operation
on a file at one of these paths keeps the agreement.
-/

namespace MixedInteger

namespace FileSystem

variable {files other third : FileSystem} {path : String} {paths : List String} {place : Location}

/--
Two file systems that differ at most in what stands at some paths: a file or nothing, but
in neither of them a directory.
-/
structure AgreeBeside (paths : List String) (files other : FileSystem) : Prop where
  working : files.working = other.working
  elsewhere : ∀ place, (∀ path ∈ paths, files.resolve path ≠ .ok place) →
    files.node? place = other.node? place
  free : ∀ path ∈ paths, ∀ place, files.resolve path = .ok place →
    files.node? place ≠ some .directory ∧ other.node? place ≠ some .directory

namespace AgreeBeside

theorem sameDirectories (agree : AgreeBeside paths files other) : SameDirectories files other := by
  refine ⟨agree.working, fun place => ?_⟩
  by_cases excepted : ∃ path ∈ paths, files.resolve path = .ok place
  · obtain ⟨path, listed, leads⟩ := excepted
    obtain ⟨first, second⟩ := agree.free path listed place leads
    exact iff_of_false first second
  · rw [agree.elsewhere place fun path listed leads => excepted ⟨path, listed, leads⟩]

/-- No directory is at the paths on either side. -/
theorem free_right (agree : AgreeBeside paths files other) :
    ∀ path ∈ paths, ∀ place, other.resolve path = .ok place → other.node? place ≠ some .directory :=
  fun path listed place leads =>
    (agree.free path listed place (agree.sameDirectories.resolve_ok_iff.mpr leads)).2

theorem symm (agree : AgreeBeside paths files other) : AgreeBeside paths other files := by
  have leads {path : String} {place : Location} :
      files.resolve path = .ok place ↔ other.resolve path = .ok place :=
    agree.sameDirectories.resolve_ok_iff
  refine ⟨agree.working.symm, fun place apart => ?_, fun path listed place led => ?_⟩
  · exact (agree.elsewhere place fun path listed led => apart path listed (leads.mp led)).symm
  · exact (agree.free path listed place (leads.mpr led)).symm

theorem trans (first : AgreeBeside paths files other) (second : AgreeBeside paths other third) :
    AgreeBeside paths files third := by
  have leads {path : String} {place : Location} :
      files.resolve path = .ok place ↔ other.resolve path = .ok place :=
    first.sameDirectories.resolve_ok_iff
  refine ⟨first.working.trans second.working, fun place apart => ?_, fun path listed place led => ?_⟩
  · rw [first.elsewhere place apart]
    exact second.elsewhere place fun path listed led => apart path listed (leads.mpr led)
  · exact ⟨(first.free path listed place led).1,
      (second.free path listed place (leads.mp led)).2⟩

/-- Two file systems that agree beside some paths are the same if none of them leads anywhere. -/
theorem eq_of_nowhere (agree : AgreeBeside paths files other)
    (nowhere : ∀ path ∈ paths, ∀ place, files.resolve path ≠ .ok place) : files = other :=
  eq_of_node? agree.working fun place =>
    agree.elsewhere place fun path listed => nowhere path listed place

/-- Where a path leads, the same node can be put into both. -/
theorem put (agree : AgreeBeside (path :: paths) files other) (leads : files.resolve path = .ok place)
    {node : Option Node} (file : node ≠ some .directory) :
    AgreeBeside paths (files.put place node) (other.put place node) := by
  have free := agree.free path List.mem_cons_self place leads
  have same := sameDirectories_put free.1 file
  refine ⟨agree.working, fun spot apart => ?_, fun more listed spot led => ?_⟩
  · by_cases equal : spot = place
    · rw [equal, put_node?_self, put_node?_self]
    · rw [put_node?_of_ne equal, put_node?_of_ne equal]
      apply agree.elsewhere
      intro more listed led
      rcases List.mem_cons.mp listed with rfl | later
      · exact equal (Except.ok.inj (led.symm.trans leads))
      · exact apart more later (same.resolve_ok_iff.mp led)
  · by_cases equal : spot = place
    · rw [equal, put_node?_self, put_node?_self]
      exact ⟨file, file⟩
    · rw [put_node?_of_ne equal, put_node?_of_ne equal]
      exact agree.free more (List.mem_cons_of_mem _ listed) spot (same.resolve_ok_iff.mpr led)

/-- What agrees beside some paths agrees beside more of them, if no directory is there. -/
theorem mono {more : List String} (agree : AgreeBeside paths files other) (listed : paths ⊆ more)
    (free : ∀ path ∈ more, ∀ place, files.resolve path = .ok place →
      files.node? place ≠ some .directory) : AgreeBeside more files other := by
  refine ⟨agree.working, fun place apart => ?_, fun path member place leads => ?_⟩
  · exact agree.elsewhere place fun path present => apart path (listed present)
  · have first := free path member place leads
    exact ⟨first, fun stands => first ((agree.sameDirectories.iff place).mpr stands)⟩

end AgreeBeside

section

variable (free : ∀ path ∈ paths, ∀ place, files.resolve path = .ok place →
  files.node? place ≠ some .directory)

include free

theorem agreeBeside_self : AgreeBeside paths files files :=
  ⟨rfl, fun _ _ => rfl, fun path listed place leads =>
    ⟨free path listed place leads, free path listed place leads⟩⟩

/-- A file is put, or removed, where a path leads. -/
theorem agreeBeside_put (listed : path ∈ paths) (leads : files.resolve path = .ok place)
    {node : Option Node} (file : node ≠ some .directory) :
    AgreeBeside paths files (files.put place node) := by
  have same := sameDirectories_put (free path listed place leads) file
  refine ⟨rfl, fun spot apart => ?_, fun other member spot led => ?_⟩
  · have elsewhere : spot ≠ place := fun equal => apart path listed (equal ▸ leads)
    rw [put_node?_of_ne elsewhere]
  · have first := free other member spot led
    exact ⟨first, fun stands => first ((same.iff spot).mpr stands)⟩

theorem agreeBeside_of_clear (listed : path ∈ paths) {cleared : FileSystem}
    (removed : files.clear path = .ok cleared) : AgreeBeside paths files cleared := by
  rcases clear_ok_iff.mp removed with ⟨place, leads, -, rfl⟩ | ⟨-, rfl⟩
  · exact agreeBeside_put free listed leads nofun
  · exact agreeBeside_self free

theorem agreeBeside_of_write (listed : path ∈ paths) {content : ByteArray} {written : FileSystem}
    (wrote : files.write path content = .ok written) : AgreeBeside paths files written := by
  obtain ⟨place, leads, -, rfl⟩ := write_ok_iff.mp wrote
  exact agreeBeside_put free listed leads nofun

end

end FileSystem

end MixedInteger
