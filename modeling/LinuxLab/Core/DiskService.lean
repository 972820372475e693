import LinuxLab.Lib.Exec
import LinuxLab.Lib.FileTree
import LinuxLab.Lib.IntExpr

/-!
# The disk service

`get_directory_size` of `worker.c` adds up the sizes of the entries below a directory, and
`disk_service_thread` calls it for `./fs` at every notification of inotify.  The code works on
paths.  It writes them to an array of 1024 bytes with `sprintf`, keeps the sum in a `long` and
the total in an `int`, and closes no directory that it opens.  The paths that it writes and the
directories that are open are part of the state here.
-/

namespace LinuxLab
namespace DiskService

open Lib

/-- The `long` that the machine keeps of a result: 64 bits. -/
def wrapLong (n : Int) : Int := n.bmod 18446744073709551616

/-- The directory that `disk_service_thread` watches. -/
def directory : CString := ['.', '/', 'f', 's']

/-- `sizeof(filePath)`. -/
def filePathSize : Nat := 1024

/-- The open directory streams of the process, what `sprintf` wrote to `filePath`, and whether
`opendir` ever failed because there were too many streams. -/
structure Scan where
  opened : Nat
  paths : List CString
  refused : Bool
deriving DecidableEq, Repr

/-- The loop over `readdir`.  `recurse` is the call for a subdirectory. -/
def readLoop (fs : FileSystem) (recurse : CString → Scan → Option (Int × Scan))
    (dirname : CString) : List CString → Int → Scan → Option (Int × Scan)
  | [], totalSize, s => some (totalSize, s)
  | name :: names, totalSize, s =>
    if name = ['.'] ∨ name = ['.', '.'] then readLoop fs recurse dirname names totalSize s
    else
      let filePath := join dirname name
      let s := { s with paths := s.paths ++ [filePath] }
      match fs.lstat filePath with
      | none => readLoop fs recurse dirname names totalSize s
      | some st =>
        if st.isDir = true then
          match recurse filePath s with
          | none => none
          | some (size, s) =>
            let dirSize := wrapLong (size + st.size)
            readLoop fs recurse dirname names (wrapLong (totalSize + dirSize)) s
        else readLoop fs recurse dirname names (wrapLong (totalSize + st.size)) s

/-- `get_directory_size`, for a process that may have `limit` streams open.  The fuel bounds
the depth of the recursion. -/
def getDirectorySize (fs : FileSystem) (limit : Nat) :
    Nat → CString → Scan → Option (Int × Scan)
  | 0, _, _ => none
  | fuel + 1, dirname, s =>
    if limit ≤ s.opened then some (0, { s with refused := true })
    else
      match fs.opendir dirname with
      | none => some (0, s)
      | some names =>
        readLoop fs (getDirectorySize fs limit fuel) dirname names 0
          { s with opened := s.opened + 1 }

/-! ## The sum -/

theorem wrapLong_add_left (a b : Int) : wrapLong (wrapLong a + b) = wrapLong (a + b) :=
  Int.bmod_add_bmod

theorem wrapLong_add_right (a b : Int) : wrapLong (a + wrapLong b) = wrapLong (a + b) :=
  Int.add_bmod_bmod

section

variable {fs : FileSystem} {recurse : CString → Scan → Option (Int × Scan)} {dirname name : CString}
  {names : List CString} {totalSize size : Int} {s t : Scan} {st : Stat}

theorem readLoop_dots (h : name = ['.'] ∨ name = ['.', '.']) :
    readLoop fs recurse dirname (name :: names) totalSize s =
      readLoop fs recurse dirname names totalSize s := by
  rw [readLoop, if_pos h]

theorem readLoop_file (hname : LegalName name) (hstat : fs.lstat (join dirname name) = some st)
    (hfile : st.isDir = false) :
    readLoop fs recurse dirname (name :: names) totalSize s =
      readLoop fs recurse dirname names (wrapLong (totalSize + st.size))
        { s with paths := s.paths ++ [join dirname name] } := by
  rw [readLoop, if_neg hname.not_dots]
  dsimp only
  rw [hstat]
  dsimp only
  rw [hfile, if_neg Bool.false_ne_true]

theorem readLoop_dir (hname : LegalName name) (hstat : fs.lstat (join dirname name) = some st)
    (hdir : st.isDir = true)
    (hsub : recurse (join dirname name) { s with paths := s.paths ++ [join dirname name] } =
      some (size, t)) :
    readLoop fs recurse dirname (name :: names) totalSize s =
      readLoop fs recurse dirname names
        (wrapLong (totalSize + wrapLong (size + st.size))) t := by
  rw [readLoop, if_neg hname.not_dots]
  dsimp only
  rw [hstat]
  dsimp only
  rw [if_pos hdir, hsub]

end

theorem getDirectorySize_opened {fs : FileSystem} {limit fuel : Nat} {dirname : CString}
    {names : List CString} {s : Scan} (hopen : fs.opendir dirname = some names)
    (hlimit : s.opened < limit) :
    getDirectorySize fs limit (fuel + 1) dirname s =
      readLoop fs (getDirectorySize fs limit fuel) dirname names (wrapLong 0)
        { s with opened := s.opened + 1 } := by
  rw [getDirectorySize, if_neg (by omega), hopen]
  rfl

theorem getDirectorySize_refused {fs : FileSystem} {limit fuel : Nat} {dirname : CString}
    {s : Scan} (hlimit : limit ≤ s.opened) :
    getDirectorySize fs limit (fuel + 1) dirname s = some (0, { s with refused := true }) := by
  rw [getDirectorySize, if_pos hlimit]

theorem one_le_depth (l : Listing) : 1 ≤ l.depth := by
  induction l with
  | nil => exact Nat.le_refl 1
  | dot rest ih => exact ih
  | dotDot rest ih => exact ih
  | file name size rest ih => exact ih
  | dir name size sub rest _ ih => exact Nat.le_trans ih (Nat.le_max_right _ _)

/-- With streams for all directories, the loop adds the sizes of a tree to the sum and opens
each directory below once. -/
theorem readLoop_spec {fs : FileSystem} {limit fuel : Nat} {dirname : CString} {l : Listing}
    {sum : Int} {s : Scan} (hl : Realises fs dirname l) (hfuel : l.depth ≤ fuel + 1)
    (hlimit : s.opened + l.directories ≤ limit) :
    readLoop fs (getDirectorySize fs limit fuel) dirname l.names (wrapLong sum) s =
      some (wrapLong (sum + l.totalSize),
        ⟨s.opened + l.directories, s.paths ++ l.paths dirname, s.refused⟩) := by
  induction l generalizing dirname sum s fuel with
  | nil =>
    show some (wrapLong sum, s) =
      some (wrapLong (sum + 0), ⟨s.opened + 0, s.paths ++ [], s.refused⟩)
    rw [Int.add_zero, List.append_nil]
    rfl
  | dot rest ih => exact (readLoop_dots (.inl rfl)).trans (ih hl hfuel hlimit)
  | dotDot rest ih => exact (readLoop_dots (.inr rfl)).trans (ih hl hfuel hlimit)
  | file name size rest ih =>
    obtain ⟨hname, hstat, hrest⟩ := hl
    refine (readLoop_file hname hstat rfl).trans ?_
    rw [wrapLong_add_left]
    refine (ih hrest hfuel ?_).trans ?_
    · exact hlimit
    · rw [Int.add_assoc, ← Int.natCast_add, List.append_assoc]
      rfl
  | dir name size sub rest ihsub ih =>
    obtain ⟨hname, hstat, hopen, hsub, hrest⟩ := hl
    have hdepth : max (sub.depth + 1) rest.depth ≤ fuel + 1 := hfuel
    have hstreams : s.opened + (1 + sub.directories + rest.directories) ≤ limit := hlimit
    have hpos := one_le_depth sub
    obtain ⟨fuel, rfl⟩ : ∃ k, fuel = k + 1 := ⟨fuel - 1, by omega⟩
    have hsubDepth : sub.depth ≤ fuel + 1 := by omega
    have hcall : getDirectorySize fs limit (fuel + 1) (join dirname name)
        { s with paths := s.paths ++ [join dirname name] } =
          some (wrapLong (0 + sub.totalSize), ⟨s.opened + 1 + sub.directories,
            s.paths ++ [join dirname name] ++ sub.paths (join dirname name), s.refused⟩) := by
      refine (getDirectorySize_opened hopen ?_).trans (ihsub hsub hsubDepth ?_)
      · show s.opened < limit
        omega
      · show s.opened + 1 + sub.directories ≤ limit
        omega
    refine (readLoop_dir hname hstat rfl hcall).trans ?_
    rw [wrapLong_add_left, wrapLong_add_left, wrapLong_add_right]
    refine (ih hrest (by omega) ?_).trans ?_
    · show s.opened + 1 + sub.directories + rest.directories ≤ limit
      omega
    · have hsum : sum + (0 + sub.totalSize + size) + rest.totalSize =
          sum + (size + sub.totalSize + rest.totalSize : Nat) := by omega
      have hcount : s.opened + 1 + sub.directories + rest.directories =
          s.opened + (1 + sub.directories + rest.directories) := by omega
      rw [hsum, hcount, List.append_assoc, List.append_assoc, List.singleton_append]
      rfl

theorem getDirectorySize_spec {fs : FileSystem} {limit fuel : Nat} {dirname : CString}
    {l : Listing} {s : Scan} (hopen : fs.opendir dirname = some l.names)
    (hl : Realises fs dirname l) (hfuel : l.depth ≤ fuel)
    (hlimit : s.opened + l.directories < limit) :
    getDirectorySize fs limit fuel dirname s = some (wrapLong l.totalSize,
      ⟨s.opened + 1 + l.directories, s.paths ++ l.paths dirname, s.refused⟩) := by
  have hpos := one_le_depth l
  obtain ⟨fuel, rfl⟩ : ∃ k, fuel = k + 1 := ⟨fuel - 1, by omega⟩
  refine (getDirectorySize_opened hopen (by omega)).trans ((readLoop_spec hl hfuel ?_).trans ?_)
  · show s.opened + 1 + l.directories ≤ limit
    omega
  · rw [Int.zero_add]

/-! ## Snapshots of the file system -/

/-- The files when a notification is handled: `./fs` leads to the directory `root`. -/
structure Snapshot where
  cwd : Node
  rootSize : Nat
  root : Listing
  present : resolve cwd directory = some (.dir rootSize root)
  legal : root.Legal

theorem Snapshot.opendir_eq (snap : Snapshot) :
    (mounted snap.cwd).opendir directory = some snap.root.names := by
  show (resolve snap.cwd directory).bind Node.entries = _
  rw [snap.present]
  rfl

theorem Snapshot.realises (snap : Snapshot) : Realises (mounted snap.cwd) directory snap.root :=
  realises_of_resolve snap.present snap.legal (fun _ _ h => h)

/-- `get_directory_size("./fs")`. -/
def scan (limit : Nat) (snap : Snapshot) (s : Scan) : Option (Int × Scan) :=
  getDirectorySize (mounted snap.cwd) limit snap.root.depth directory s

theorem scan_spec {limit : Nat} {snap : Snapshot} {s : Scan}
    (h : s.opened + snap.root.directories < limit) :
    scan limit snap s = some (wrapLong snap.root.totalSize, ⟨s.opened + 1 + snap.root.directories,
      s.paths ++ snap.root.paths directory, s.refused⟩) :=
  getDirectorySize_spec snap.opendir_eq snap.realises (Nat.le_refl _) h

/-- The call returns the sum, its paths fit, and a sum that fits a `long` is what is logged
as an `int`. -/
def Exact (limit : Nat) (snap : Snapshot) : Prop :=
  ∃ size s, scan limit snap ⟨0, [], false⟩ = some (size, s) ∧ size = snap.root.totalSize ∧
    (∀ path ∈ s.paths, path.length < filePathSize) ∧
    (snap.root.totalSize < 9223372036854775808 → wrapInt size = snap.root.totalSize)

theorem wrapLong_eq {n : Nat} (h : n < 9223372036854775808) : wrapLong n = n := by
  rw [wrapLong, Int.bmod_eq_of_le (by omega) (by omega)]

theorem wrapLong_lt (n : Int) : wrapLong n < 9223372036854775808 := by
  have hlt := @Int.bmod_lt n 18446744073709551616 (by decide)
  unfold wrapLong
  omega

theorem Exact.bounds {limit : Nat} {snap : Snapshot} (hexact : Exact limit snap)
    (h : snap.root.directories < limit) :
    snap.root.totalSize < 2147483648 ∧
      ∀ path ∈ snap.root.paths directory, path.length < filePathSize := by
  obtain ⟨size, s, hsize, hsum, hpaths, hlogged⟩ := hexact
  rw [scan_spec (show 0 + snap.root.directories < limit by omega), Option.some.injEq,
    Prod.mk.injEq] at hsize
  obtain ⟨rfl, rfl⟩ := hsize
  refine ⟨?_, hpaths⟩
  have hlt := wrapLong_lt snap.root.totalSize
  have hint := (inInt_wrapInt (wrapLong snap.root.totalSize)).2
  rw [hlogged (by omega)] at hint
  omega

theorem exact_of_bounds {limit : Nat} {snap : Snapshot} (h : snap.root.directories < limit)
    (hsmall : snap.root.totalSize < 2147483648)
    (hpaths : ∀ path ∈ snap.root.paths directory, path.length < filePathSize) :
    Exact limit snap := by
  have hlong : wrapLong snap.root.totalSize = snap.root.totalSize := wrapLong_eq (by omega)
  refine ⟨_, _, scan_spec (show 0 + snap.root.directories < limit by omega), hlong, hpaths,
    fun _ => ?_⟩
  rw [hlong]
  exact wrapInt_eq ⟨by omega, by omega⟩

/-- When every directory can be opened, the size is the exact sum and is logged as such, with
paths that fit, exactly when the sum is below 2147483648 and no path has more than 1023
characters. -/
theorem directory_size_exact_iff {limit : Nat} {snap : Snapshot}
    (h : snap.root.directories < limit) :
    Exact limit snap ↔ snap.root.totalSize < 2147483648 ∧
      ∀ path ∈ snap.root.paths directory, path.length < filePathSize :=
  ⟨fun hexact => hexact.bounds h, fun hbounds => exact_of_bounds h hbounds.1 hbounds.2⟩

/-- A working directory that has `fs` only. -/
def Snapshot.ofRoot (root : Listing) (legal : root.Legal) : Snapshot where
  cwd := .dir 4096 (.dir ['f', 's'] 4096 root .nil)
  rootSize := 4096
  root := root
  present := by rfl
  legal := legal

theorem legalName_a : LegalName ['a'] :=
  ⟨by decide, by decide, by decide, by decide, by decide, by decide⟩

/-- One directory with a file of 100 bytes. -/
def small : Snapshot :=
  .ofRoot (.dot (.dir ['a'] 4096 (.file ['a'] 100 .nil) (.dotDot .nil)))
    ⟨legalName_a, by decide, ⟨legalName_a, by decide, trivial⟩, trivial⟩

theorem directory_size_exact_small :
    Exact 2 small ∧ small.root.totalSize = 4196 :=
  ⟨(directory_size_exact_iff (by decide)).mpr (by decide), rfl⟩

/-- One file of 2147483648 bytes. -/
def large : Snapshot :=
  .ofRoot (.file ['a'] 2147483648 .nil) ⟨legalName_a, by decide, trivial⟩

/-- Directories in one another, with names of 255 characters. -/
def nested : Nat → Listing
  | 0 => .nil
  | n + 1 => .dir (List.replicate 255 'a') 4096 (nested n) .nil

theorem legal_nested (n : Nat) : (nested n).Legal := by
  have hlength : (List.replicate 255 'a').length = 255 := List.length_replicate
  have hother : ∀ c, c ≠ 'a' → c ∉ List.replicate 255 'a' :=
    fun c hne hc => hne (List.eq_of_mem_replicate hc)
  have hlong : ∀ name : CString, name.length < 255 → List.replicate 255 'a' ≠ name := by
    rintro name hlt rfl
    omega
  have hname : LegalName (List.replicate 255 'a') :=
    ⟨hlong _ (by decide), Nat.le_of_eq hlength, hother _ (by decide), hother _ (by decide),
      hlong _ (by decide), hlong _ (by decide)⟩
  induction n with
  | zero => trivial
  | succ n ih => exact ⟨hname, List.not_mem_nil, ih, trivial⟩

/-- The innermost directory has the longest path. -/
theorem exists_path_nested (n : Nat) (path : CString) :
    ∃ longest ∈ (nested (n + 1)).paths path, longest.length = path.length + 256 * (n + 1) := by
  have hjoin : ∀ path : CString,
      (join path (List.replicate 255 'a')).length = path.length + 256 := by
    intro path
    rw [join, List.length_append, List.length_cons, List.length_replicate]
  induction n generalizing path with
  | zero => exact ⟨_, List.mem_cons_self, hjoin path⟩
  | succ n ih =>
    obtain ⟨longest, hmem, hlongest⟩ := ih (join path (List.replicate 255 'a'))
    refine ⟨longest, List.mem_cons_of_mem _ (List.mem_append_left _ hmem), ?_⟩
    rw [hlongest, hjoin]
    omega

/-- A sum of 2147483648 is logged as -2147483648, and a path of 1028 characters does not fit
although the sum does. -/
theorem directory_size_inexact :
    (∃ s, scan 1 large ⟨0, [], false⟩ = some (2147483648, s) ∧
      wrapInt 2147483648 = -2147483648 ∧ ¬Exact 1 large) ∧
    ¬Exact 5 (.ofRoot (nested 4) (legal_nested 4)) := by
  have hsum : large.root.totalSize = 2147483648 := by decide
  have hscan := scan_spec (s := ⟨0, [], false⟩) (show 0 + large.root.directories < 1 by decide)
  rw [hsum, wrapLong_eq (by decide)] at hscan
  refine ⟨⟨_, hscan, by decide, fun h => ?_⟩, fun h => ?_⟩
  · have hsmall := (h.bounds (by decide)).1
    rw [hsum] at hsmall
    exact absurd hsmall (by decide)
  · obtain ⟨longest, hmem, hlength⟩ := exists_path_nested 3 directory
    have hfits := (h.bounds (by decide)).2 longest hmem
    rw [hlength] at hfits
    exact absurd hfits (by decide)

/-! ## Open streams -/

/-- A call is refused, or leaves more streams open than there were. -/
def Leaks (limit : Nat) (s : Scan) (size : Int) (t : Scan) : Prop :=
  (limit ≤ s.opened ∧ size = 0 ∧ t = { s with refused := true }) ∨
    (s.opened < limit ∧ s.opened < t.opened)

theorem Leaks.opened_le {limit : Nat} {s t : Scan} {size : Int} (h : Leaks limit s size t) :
    s.opened ≤ t.opened := by
  rcases h with ⟨-, -, rfl⟩ | ⟨-, hlt⟩
  · exact Nat.le_refl _
  · exact Nat.le_of_lt hlt

theorem leaks_of_readLoop {fs : FileSystem} {limit fuel : Nat} {dirname : CString}
    {names : List CString} (s : Scan) (hopen : fs.opendir dirname = some names)
    (hloop : ∀ u : Scan, ∃ size t, readLoop fs (getDirectorySize fs limit fuel) dirname names
      (wrapLong 0) u = some (size, t) ∧ u.opened ≤ t.opened) :
    ∃ size t, getDirectorySize fs limit (fuel + 1) dirname s = some (size, t) ∧
      Leaks limit s size t := by
  by_cases hfull : limit ≤ s.opened
  · exact ⟨0, _, getDirectorySize_refused hfull, .inl ⟨hfull, rfl, rfl⟩⟩
  · have hroom := Nat.lt_of_not_le hfull
    obtain ⟨size, t, hsize, hle⟩ := hloop { s with opened := s.opened + 1 }
    exact ⟨size, t, (getDirectorySize_opened hopen hroom).trans hsize, .inr ⟨hroom, hle⟩⟩

/-- Whatever the limit, the loop comes to its end, and no stream is closed. -/
theorem readLoop_returns {fs : FileSystem} {limit fuel : Nat} {dirname : CString} {l : Listing}
    (totalSize : Int) (s : Scan) (hl : Realises fs dirname l) (hfuel : l.depth ≤ fuel + 1) :
    ∃ size t, readLoop fs (getDirectorySize fs limit fuel) dirname l.names totalSize s =
      some (size, t) ∧ s.opened ≤ t.opened := by
  induction l generalizing dirname totalSize s fuel with
  | nil => exact ⟨totalSize, s, rfl, Nat.le_refl _⟩
  | dot rest ih =>
    obtain ⟨size, t, hloop, hle⟩ := ih totalSize s hl hfuel
    exact ⟨size, t, (readLoop_dots (.inl rfl)).trans hloop, hle⟩
  | dotDot rest ih =>
    obtain ⟨size, t, hloop, hle⟩ := ih totalSize s hl hfuel
    exact ⟨size, t, (readLoop_dots (.inr rfl)).trans hloop, hle⟩
  | file name fileSize rest ih =>
    obtain ⟨hname, hstat, hrest⟩ := hl
    obtain ⟨size, t, hloop, hle⟩ := ih _ _ hrest hfuel
    exact ⟨size, t, (readLoop_file hname hstat rfl).trans hloop, hle⟩
  | dir name dirSize sub rest ihsub ih =>
    obtain ⟨hname, hstat, hopen, hsub, hrest⟩ := hl
    have hdepth : max (sub.depth + 1) rest.depth ≤ fuel + 1 := hfuel
    have hpos := one_le_depth sub
    obtain ⟨fuel, rfl⟩ : ∃ k, fuel = k + 1 := ⟨fuel - 1, by omega⟩
    have hsubDepth : sub.depth ≤ fuel + 1 := by omega
    have hrestDepth : rest.depth ≤ fuel + 1 + 1 := by omega
    obtain ⟨size, t, hcall, hleaks⟩ := leaks_of_readLoop
      { s with paths := s.paths ++ [join dirname name] } hopen
      (fun u => ihsub (wrapLong 0) u hsub hsubDepth)
    obtain ⟨total, u, hloop, hle⟩ := ih _ t hrest hrestDepth
    exact ⟨total, u, (readLoop_dir hname hstat rfl hcall).trans hloop,
      Nat.le_trans hleaks.opened_le hle⟩

theorem scan_leaks (limit : Nat) (snap : Snapshot) (s : Scan) :
    ∃ size t, scan limit snap s = some (size, t) ∧ Leaks limit s size t := by
  have hpos := one_le_depth snap.root
  obtain ⟨fuel, hfuel⟩ : ∃ k, snap.root.depth = k + 1 := ⟨snap.root.depth - 1, by omega⟩
  unfold scan
  rw [hfuel]
  exact leaks_of_readLoop s snap.opendir_eq
    (fun u => readLoop_returns (wrapLong 0) u snap.realises (Nat.le_of_eq hfuel))

/-! ## The service -/

/-- The open streams, whether `opendir` was ever refused, and for every notification the size
of the tree with the total that was logged. -/
structure Service where
  opened : Nat
  refused : Bool
  reports : List (Nat × Int)
deriving DecidableEq, Repr

def started : Service := ⟨0, false, []⟩

/-- `disk_service_thread` handles a notification. -/
def handle (limit : Nat) (s : Service) (snap : Snapshot) : Option Service :=
  match scan limit snap ⟨s.opened, [], s.refused⟩ with
  | none => none
  | some (size, t) =>
    some ⟨t.opened, t.refused, s.reports ++ [(snap.root.totalSize, wrapInt size)]⟩

/-- The number of open streams is the same before and after every call.  When the limit is
larger than the depth of the trees, `opendir` is never refused and every total is right. -/
def NoLeak (limit : Nat) (snaps : List Snapshot) : Prop :=
  (∀ front snap back s t, snaps = front ++ snap :: back →
    exec (handle limit) started front = some s → handle limit s snap = some t →
      t.opened = s.opened) ∧
  ((∀ snap ∈ snaps, snap.root.depth < limit) →
    Everywhere (handle limit) (fun s => s.refused = false ∧ ∀ r ∈ s.reports, r.2 = r.1)
      started snaps)

theorem handle_leaks (limit : Nat) (s : Service) (snap : Snapshot) :
    ∃ t, handle limit s snap = some t ∧
      ((limit ≤ s.opened ∧ t = ⟨s.opened, true, s.reports ++ [(snap.root.totalSize, 0)]⟩) ∨
        (s.opened < limit ∧ s.opened < t.opened)) := by
  obtain ⟨size, u, hscan, hleaks⟩ := scan_leaks limit snap ⟨s.opened, [], s.refused⟩
  unfold handle
  rw [hscan]
  refine ⟨_, rfl, ?_⟩
  rcases hleaks with ⟨hfull, rfl, rfl⟩ | hleaks
  · exact .inl ⟨hfull, rfl⟩
  · exact .inr hleaks

theorem handle_refused {limit : Nat} {s : Service} (h : limit ≤ s.opened) (snap : Snapshot) :
    handle limit s snap =
      some ⟨s.opened, true, s.reports ++ [(snap.root.totalSize, 0)]⟩ := by
  obtain ⟨t, ht, ⟨-, rfl⟩ | ⟨hroom, -⟩⟩ := handle_leaks limit s snap
  · exact ht
  · omega

/-- Every notification is handled. -/
theorem exists_exec_handle (limit : Nat) (snaps : List Snapshot) (s : Service) :
    ∃ t, exec (handle limit) s snaps = some t := by
  induction snaps generalizing s with
  | nil => exact ⟨s, rfl⟩
  | cons snap snaps ih =>
    obtain ⟨t, ht, -⟩ := handle_leaks limit s snap
    obtain ⟨u, hu⟩ := ih t
    exact ⟨u, exec_cons ht hu⟩

/-- Each notification leaves a stream open, as long as there may be more. -/
def AtLeast (limit : Nat) (front : List Snapshot) (s : Service) : Prop :=
  min limit front.length ≤ s.opened

theorem atLeast_step {limit : Nat} {front : List Snapshot} {s t : Service} {snap : Snapshot}
    (hs : AtLeast limit front s) (h : handle limit s snap = some t) :
    AtLeast limit (front ++ [snap]) t := by
  unfold AtLeast at hs ⊢
  have hlength : (front ++ [snap]).length = front.length + 1 := List.length_append
  obtain ⟨u, hu, hleaks⟩ := handle_leaks limit s snap
  cases h.symm.trans hu
  rcases hleaks with ⟨hfull, rfl⟩ | ⟨-, hlt⟩
  · show _ ≤ s.opened
    omega
  · omega

/-- After as many notifications as there may be streams, each further total is 0. -/
theorem handle_after_limit {limit : Nat} {snaps : List Snapshot} (h : limit ≤ snaps.length)
    (snap : Snapshot) :
    ∃ s, exec (handle limit) started snaps = some s ∧ handle limit s snap =
      some ⟨s.opened, true, s.reports ++ [(snap.root.totalSize, 0)]⟩ := by
  obtain ⟨s, hs⟩ := exists_exec_handle limit snaps started
  have hstarted : AtLeast limit [] started := Nat.min_le_right _ _
  have hopened : AtLeast limit ([] ++ snaps) s :=
    exec_history (fun _ _ _ _ (_ : True) => atLeast_step) hstarted (fun _ _ => trivial) hs
  rw [List.nil_append, AtLeast, Nat.min_eq_left h] at hopened
  exact ⟨s, hs, handle_refused hopened snap⟩

theorem limit_eq_zero_of_noLeak {limit : Nat} {snap : Snapshot} {snaps : List Snapshot}
    (h : NoLeak limit (snap :: snaps)) : limit = 0 := by
  obtain ⟨t, ht, hleaks⟩ := handle_leaks limit started snap
  have heq := h.1 [] snap snaps started t rfl rfl ht
  rcases hleaks with ⟨hfull, -⟩ | ⟨-, hlt⟩
  · exact Nat.le_zero.mp hfull
  · omega

/-- The streams are balanced exactly when no notification is handled or not even one stream
may be open. -/
theorem no_leak_iff (limit : Nat) (snaps : List Snapshot) :
    NoLeak limit snaps ↔ snaps = [] ∨ limit = 0 := by
  constructor
  · intro h
    cases snaps with
    | nil => exact .inl rfl
    | cons snap snaps => exact .inr (limit_eq_zero_of_noLeak h)
  · intro h
    refine ⟨?_, fun hdepth => ?_⟩
    · intro front snap back s t hsplit hs ht
      rcases h with rfl | rfl
      · exact absurd hsplit (by simp)
      · cases (handle_refused (Nat.zero_le _) snap).symm.trans ht
        rfl
    · cases snaps with
      | nil =>
        intro front back t hsplit ht
        obtain ⟨rfl, rfl⟩ := List.append_eq_nil_iff.mp hsplit.symm
        cases ht
        exact ⟨rfl, List.forall_mem_nil _⟩
      | cons snap snaps =>
        have hlt := hdepth snap List.mem_cons_self
        rcases h with h | rfl
        · cases h
        · omega

/-- Three streams are more than the depth of the tree.  The second notification misses the file
in the subdirectory, and the third is logged as 0. -/
theorem scanning_leaks :
    small.root.depth = 2 ∧
      exec (handle 3) started [small, small, small] =
        some ⟨3, true, [(4196, 4196), (4196, 4096), (4196, 0)]⟩ ∧
      ¬NoLeak 3 [small] := by
  refine ⟨by decide, by decide +kernel, fun h => ?_⟩
  exact absurd (limit_eq_zero_of_noLeak h) (by decide)

end DiskService
end LinuxLab
