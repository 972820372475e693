import LinuxLab.Lib.CString

/-!
# Directory trees

A directory is the list of its entries in the order in which they are read, `.` and `..`
among them.  `mounted` answers the calls of a program that runs in a directory: it resolves
a path one name at a time.  `Realises` says in terms of these answers that a tree is found
below a path, and `realises_of_resolve` that this is so.
-/

namespace LinuxLab
namespace Lib

/-- The entries of a directory.  An entry that is no directory is a `file`, a symbolic link
too. -/
inductive Listing where
  | nil
  | dot (rest : Listing)
  | dotDot (rest : Listing)
  | file (name : CString) (size : Nat) (rest : Listing)
  | dir (name : CString) (size : Nat) (sub rest : Listing)
deriving DecidableEq, Repr

/-- What `lstat` tells. -/
structure Stat where
  isDir : Bool
  size : Nat
deriving DecidableEq, Repr

structure FileSystem where
  opendir : CString → Option (List CString)
  lstat : CString → Option Stat

def join (path name : CString) : CString := path ++ '/' :: name

namespace Listing

def names : Listing → List CString
  | nil => []
  | dot rest => ['.'] :: rest.names
  | dotDot rest => ['.', '.'] :: rest.names
  | file name _ rest => name :: rest.names
  | dir name _ _ rest => name :: rest.names

/-- The sizes of all entries below, of files and directories. -/
def totalSize : Listing → Nat
  | nil => 0
  | dot rest => rest.totalSize
  | dotDot rest => rest.totalSize
  | file _ size rest => size + rest.totalSize
  | dir _ size sub rest => size + sub.totalSize + rest.totalSize

/-- The number of directories below. -/
def directories : Listing → Nat
  | nil => 0
  | dot rest => rest.directories
  | dotDot rest => rest.directories
  | file _ _ rest => rest.directories
  | dir _ _ sub rest => 1 + sub.directories + rest.directories

/-- The number of directories on the longest way down, this one included. -/
def depth : Listing → Nat
  | nil => 1
  | dot rest => rest.depth
  | dotDot rest => rest.depth
  | file _ _ rest => rest.depth
  | dir _ _ sub rest => max (sub.depth + 1) rest.depth

/-- The paths of all entries below `path`, each directory before its own entries. -/
def paths (path : CString) : Listing → List CString
  | nil => []
  | dot rest => rest.paths path
  | dotDot rest => rest.paths path
  | file name _ rest => join path name :: rest.paths path
  | dir name _ sub rest => join path name :: (sub.paths (join path name) ++ rest.paths path)

end Listing

/-- A name of a directory entry. -/
structure LegalName (name : CString) : Prop where
  nonempty : name ≠ []
  short : name.length ≤ 255
  noSlash : '/' ∉ name
  noNul : nul ∉ name
  notDot : name ≠ ['.']
  notDotDot : name ≠ ['.', '.']

theorem LegalName.not_dots {name : CString} (h : LegalName name) :
    ¬(name = ['.'] ∨ name = ['.', '.']) :=
  not_or.mpr ⟨h.notDot, h.notDotDot⟩

/-- The names are legal, and those of one directory are different. -/
def Listing.Legal : Listing → Prop
  | .nil => True
  | .dot rest => rest.Legal
  | .dotDot rest => rest.Legal
  | .file name _ rest => LegalName name ∧ name ∉ rest.names ∧ rest.Legal
  | .dir name _ sub rest => LegalName name ∧ name ∉ rest.names ∧ sub.Legal ∧ rest.Legal

/-- The calls of `opendir` and `lstat` below `path` are answered from the tree. -/
def Realises (fs : FileSystem) : CString → Listing → Prop
  | _, .nil => True
  | path, .dot rest => Realises fs path rest
  | path, .dotDot rest => Realises fs path rest
  | path, .file name size rest =>
    LegalName name ∧ fs.lstat (join path name) = some ⟨false, size⟩ ∧ Realises fs path rest
  | path, .dir name size sub rest =>
    LegalName name ∧ fs.lstat (join path name) = some ⟨true, size⟩ ∧
      fs.opendir (join path name) = some sub.names ∧ Realises fs (join path name) sub ∧
      Realises fs path rest

/-! ## Paths -/

/-- What a name stands for. -/
inductive Node where
  | file (size : Nat)
  | dir (size : Nat) (sub : Listing)

def Node.stat : Node → Stat
  | .file size => ⟨false, size⟩
  | .dir size _ => ⟨true, size⟩

/-- What can be read from a directory. -/
def Node.entries : Node → Option (List CString)
  | .file _ => none
  | .dir _ sub => some sub.names

def Listing.lookup (name : CString) : Listing → Option Node
  | .nil => none
  | .dot rest => rest.lookup name
  | .dotDot rest => rest.lookup name
  | .file other size rest => if other = name then some (.file size) else rest.lookup name
  | .dir other size sub rest => if other = name then some (.dir size sub) else rest.lookup name

def Node.child (name : CString) : Node → Option Node
  | .file _ => none
  | .dir _ sub => sub.lookup name

/-- The names in a path.  The path of an entry has no `..`. -/
def components (path : CString) : List CString :=
  (path.splitOnP (· == '/')).filter (fun name => !(name == [] || name == ['.']))

/-- The node that a relative path leads to. -/
def resolve (cwd : Node) (path : CString) : Option Node :=
  (components path).foldlM (fun node name => node.child name) cwd

/-- The answers to a program that runs in the directory `cwd`. -/
def mounted (cwd : Node) : FileSystem where
  opendir path := (resolve cwd path).bind Node.entries
  lstat path := (resolve cwd path).map Node.stat

theorem components_join (path : CString) {name : CString} (h : LegalName name) :
    components (join path name) = components path ++ [name] := by
  have hname : name.splitOnP (· == '/') = [name] := by
    apply List.splitOnP_eq_singleton
    intro c hc
    exact beq_false_of_ne (fun heq => h.noSlash (heq ▸ hc))
  have hkeep : (!(name == [] || name == ['.'])) = true := by
    rw [beq_false_of_ne h.nonempty, beq_false_of_ne h.notDot]
    rfl
  have hsplit : (path ++ '/' :: name).splitOnP (· == '/') =
      path.splitOnP (· == '/') ++ name.splitOnP (· == '/') :=
    List.splitOnP_append_cons path name rfl
  rw [components, join, hsplit, List.filter_append, hname, List.filter_cons, if_pos hkeep]
  rfl

theorem resolve_join {cwd : Node} {path name : CString} (h : LegalName name) :
    resolve cwd (join path name) = (resolve cwd path).bind (Node.child name) := by
  unfold resolve
  rw [components_join path h, List.foldlM_append]
  apply bind_congr
  intro node
  rw [List.foldlM_cons]
  exact bind_pure (Node.child name node)

theorem lookup_mem_names {l : Listing} {name : CString} {node : Node}
    (h : l.lookup name = some node) : name ∈ l.names := by
  induction l with
  | nil => cases h
  | dot rest ih => exact List.mem_cons_of_mem _ (ih h)
  | dotDot rest ih => exact List.mem_cons_of_mem _ (ih h)
  | file other size rest ih =>
    by_cases heq : other = name
    · exact heq ▸ List.mem_cons_self
    · rw [Listing.lookup, if_neg heq] at h
      exact List.mem_cons_of_mem _ (ih h)
  | dir other size sub rest _ ih =>
    by_cases heq : other = name
    · exact heq ▸ List.mem_cons_self
    · rw [Listing.lookup, if_neg heq] at h
      exact List.mem_cons_of_mem _ (ih h)

theorem ne_of_lookup {l : Listing} {name other : CString} {node : Node} (hnew : name ∉ l.names)
    (h : l.lookup other = some node) : name ≠ other := by
  rintro rfl
  exact hnew (lookup_mem_names h)

/-- A program finds the tree below a path that leads to it. -/
theorem realises_of_resolve {cwd : Node} {path : CString} {size : Nat} {all l : Listing}
    (hpath : resolve cwd path = some (.dir size all)) (hlegal : l.Legal)
    (hagree : ∀ name node, l.lookup name = some node → all.lookup name = some node) :
    Realises (mounted cwd) path l := by
  -- `l` is what is left of the directory `all`; a subdirectory starts with all of its entries
  induction l generalizing path size all with
  | nil => trivial
  | dot rest ih => exact ih hpath hlegal hagree
  | dotDot rest ih => exact ih hpath hlegal hagree
  | file name fileSize rest ih =>
    obtain ⟨hname, hnew, hrest⟩ := hlegal
    have hfile : resolve cwd (join path name) = some (.file fileSize) := by
      rw [resolve_join hname, hpath]
      exact hagree name _ (if_pos rfl)
    refine ⟨hname, ?_, ih hpath hrest (fun other node h => hagree other node ?_)⟩
    · show (resolve cwd (join path name)).map Node.stat = _
      rw [hfile]
      rfl
    · rw [Listing.lookup, if_neg (ne_of_lookup hnew h)]
      exact h
  | dir name dirSize sub rest ihsub ih =>
    obtain ⟨hname, hnew, hsub, hrest⟩ := hlegal
    have hdir : resolve cwd (join path name) = some (.dir dirSize sub) := by
      rw [resolve_join hname, hpath]
      exact hagree name _ (if_pos rfl)
    refine ⟨hname, ?_, ?_, ihsub hdir hsub (fun _ _ h => h),
      ih hpath hrest (fun other node h => hagree other node ?_)⟩
    · show (resolve cwd (join path name)).map Node.stat = _
      rw [hdir]
      rfl
    · show (resolve cwd (join path name)).bind Node.entries = _
      rw [hdir]
      rfl
    · rw [Listing.lookup, if_neg (ne_of_lookup hnew h)]
      exact h

end Lib
end LinuxLab
