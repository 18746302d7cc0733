/-
  SmaliSieve.Namespace.ListFile

  Prefix lists from files. A list that cannot be read is told and counts as empty.
-/

import SmaliSieve.Log.Logged
import SmaliSieve.Namespace.PrefixList
import SmaliSieve.Tree.Reading

namespace SmaliSieve.Namespace.PrefixList

/-- The list in the file at `path`, or the fault that keeps it from being read. -/
def read (disk : Disk) (path : Path) : Except Fault PrefixList :=
  if disk.isFile path then
    ((disk.readText path).mapError (Fault.filesystem path)).map parse
  else .error (.missing .prefixList path)

/-- The list in the file at `path`, or no entries if it cannot be read. -/
def load (disk : Disk) (path : Path) : Log.Logged PrefixList :=
  match read disk path with
  | .ok list => ⟨list, [.prefixesLoaded list.length path]⟩
  | .error fault => ⟨empty, [.trouble fault]⟩

/-- The entries are those in the text of the file. There are none without a file that can be
    read as text. -/
theorem mem_entries_load {disk : Disk} {path : Path} {entry : String} :
    entry ∈ (load disk path).value.entries ↔
      disk.isFile path ∧ ∃ text, disk.readText path = .ok text ∧ entry ∈ (parse text).entries := by
  by_cases hfile : disk.isFile path = true
  · cases hread : disk.readText path with
    | ok text =>
      have hlist : read disk path = .ok (parse text) := by
        rw [read, if_pos hfile, hread]
        rfl
      simp [load, hlist, hfile]
    | error cause =>
      have hfault : read disk path = .error (.filesystem path cause) := by
        rw [read, if_pos hfile, hread]
        rfl
      simp [load, hfault, empty]
  · have hmissing : read disk path = .error (.missing .prefixList path) := by
      rw [read, if_neg hfile]
    simp [load, hmissing, hfile, empty]

end SmaliSieve.Namespace.PrefixList
