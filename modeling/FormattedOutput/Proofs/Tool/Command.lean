import FormattedOutput.Tool.Command
import Mathlib.Tactic.SplitIfs

/-!
# What the table command leaves behind

A run that reports success leaves the tables in the file that its argument names, and it touches no
other file. A run that reports a failure leaves every file as it was.
-/

namespace FormattedOutput

namespace Workspace

variable {w w' : Workspace}

/-! ## Following a path -/

/-- Only directories are on the way to a file. -/
theorem enter_eq_ok_iff (hdirectories : w'.directories = w.directories)
    (directory target : List String) (name : String) :
    w'.enter directory name = .ok target ↔ w.enter directory name = .ok target := by
  unfold enter isDirectory
  rw [hdirectories]
  split_ifs <;> simp

theorem follow_eq_ok_iff (hdirectories : w'.directories = w.directories)
    (directory target names : List String) :
    w'.follow directory names = .ok target ↔ w.follow directory names = .ok target := by
  induction names generalizing directory with
  | nil => rfl
  | cons name names ih =>
    have henter := fun next => enter_eq_ok_iff hdirectories directory next name
    unfold follow
    cases hnext : w.enter directory name with
    | ok next =>
      rw [(henter next).mpr hnext]
      exact ih next
    | error e =>
      cases hnext' : w'.enter directory name with
      | ok next =>
        have hok := (henter next).mp hnext'
        rw [hnext] at hok
        contradiction
      | error e' => simp

/-- The files of a tree do not matter for where a path leads. -/
theorem locate_eq_ok_iff (hdirectories : w'.directories = w.directories)
    (hcurrent : w'.current = w.current) (path : String) (file : List String) :
    w'.locate path = .ok file ↔ w.locate path = .ok file := by
  unfold locate isDirectory
  simp only [hcurrent, hdirectories]
  generalize (path.splitOn "/").filter (· ≠ "") = names
  generalize (if path.startsWith "/" then [] else w.current) = start
  have hfollow := fun target => follow_eq_ok_iff hdirectories start target names.dropLast
  split_ifs
  · rfl
  · cases names.getLast? with
    | none => rfl
    | some name =>
      cases hdirectory : w.follow start names.dropLast with
      | ok directory => rw [(hfollow directory).mpr hdirectory]
      | error e =>
        cases hdirectory' : w'.follow start names.dropLast with
        | ok directory =>
          have hok := (hfollow directory).mp hdirectory'
          rw [hdirectory] at hok
          contradiction
        | error e' => simp

/-! ## Writing -/

/-- Writing adds one file to a tree and leaves its directories. -/
theorem exists_of_write {path text : String} (h : w.write path text = .ok w') :
    ∃ file, w.locate path = .ok file ∧ w'.files = (file, text) :: w.files ∧
      ∀ other target, w'.locate other = .ok target ↔ w.locate other = .ok target := by
  unfold write at h
  cases hfile : w.locate path with
  | ok file =>
    rw [hfile] at h
    obtain rfl := Except.ok.inj h
    exact ⟨file, rfl, rfl, locate_eq_ok_iff rfl rfl⟩
  | error e =>
    rw [hfile] at h
    contradiction

/-- A file that was written has its text. -/
theorem read?_of_write {path text : String} (h : w.write path text = .ok w') :
    w'.read? path = some text := by
  obtain ⟨file, hfile, hfiles, hlocate⟩ := exists_of_write h
  unfold read?
  rw [(hlocate path file).mpr hfile]
  simp only [file?, hfiles, List.lookup_cons_self]

/-- Any other file has what it had before. -/
theorem read?_of_write_of_ne {path other text : String} (h : w.write path text = .ok w')
    (hne : w.locate other ≠ w.locate path) : w'.read? other = w.read? other := by
  obtain ⟨file, hfile, hfiles, hlocate⟩ := exists_of_write h
  unfold read?
  cases hother : w.locate other with
  | ok target =>
    have htarget : (target == file) = false := by
      rw [beq_eq_false_iff_ne]
      rintro rfl
      exact hne (hother.trans hfile.symm)
    rw [(hlocate other target).mpr hother]
    simp only [file?, hfiles, List.lookup_cons, htarget]
  | error e =>
    cases hother' : w'.locate other with
    | ok target =>
      have hok := (hlocate other target).mp hother'
      rw [hother] at hok
      contradiction
    | error e' => rfl

end Workspace

namespace TableCommand

/-- The command succeeds, and then its file holds the tables and any other file is as it was, or it
fails and nothing has changed. -/
theorem run_leaves (w : Workspace) (args : List String) :
    ((run w args).1.status = 0 ∧ ∃ name rest, args = name :: rest ∧
      (run w args).2.read? (pathOf name) = some TableSource.text ∧
      ∀ path, w.locate path ≠ w.locate (pathOf name) →
        (run w args).2.read? path = w.read? path) ∨
    ((run w args).1.status = 1 ∧ (run w args).2 = w) := by
  cases args with
  | nil => exact Or.inr ⟨rfl, rfl⟩
  | cons name rest =>
    cases hwrite : w.write (pathOf name) TableSource.text with
    | ok w' =>
      have hrun : run w (name :: rest) = (wrote (pathOf name), w') := by
        simp only [run, hwrite]
      rw [hrun]
      exact Or.inl ⟨rfl, name, rest, rfl, Workspace.read?_of_write hwrite,
        fun path => Workspace.read?_of_write_of_ne hwrite⟩
    | error cause =>
      have hrun : run w (name :: rest) = (failed (pathOf name) cause, w) := by
        simp only [run, hwrite]
      rw [hrun]
      exact Or.inr ⟨rfl, rfl⟩

-- In a tree without tables there is a place for them.
example : emptyWorkspace.follow emptyWorkspace.current ["rv-printf", "src", "ryu"] =
    .ok ["work", "rv-printf", "src", "ryu"] := rfl

end TableCommand

end FormattedOutput
