import LinuxLab.Lib.CString

/-!
# dumpstate: the contents of a file

`dump_file` copies a file to the output in blocks as `read` returns them, and remembers
whether the last block ended in a newline.  How much a `read` returns is up to the kernel,
and for the files of `/proc` it differs from one call to the next.  The output does not
depend on it: it is the heading, the bytes that were read, and a newline if they do not end
in one.
-/

namespace LinuxLab
namespace Dumpstate

open Lib

def bufferSize : Nat := 32768

/-- What a call of `read` returns, and for a block whether `fwrite` takes it. -/
inductive ReadResult where
  | block (bytes : List Char) (written : Bool)
  | endOfFile
  | error
deriving DecidableEq, Repr

/-- The blocks that `read` can return. -/
def ReadResult.Proper : ReadResult → Prop
  | .block bytes _ => bytes ≠ [] ∧ bytes.length ≤ bufferSize
  | _ => True

/-- The loop: what it prints, and `newline` after it.  The list ends with the last call. -/
def readLoop : List ReadResult → Bool → List Char × Bool
  | [], newline => ([], newline)
  | .block bytes true :: reads, _ =>
    let rest := readLoop reads (bytes.getLast? == some '\n')
    (bytes ++ rest.1, rest.2)
  | .block bytes false :: _, _ => ([], bytes.getLast? == some '\n')
  | .endOfFile :: _, newline => ([], newline)
  | .error :: _, newline => ([], newline)

/-- How `open` and `fstat` answer.  `stamp` is the text of `strftime`. -/
inductive Opened where
  | failed (strerror : CString)
  | opened (stamp : Option CString)

def underProcOrSys (path : CString) : Bool :=
  strncmpEq path "/proc/".toList 6 || strncmpEq path "/sys/".toList 5

def heading (title : Option CString) (path : CString) (stamp : Option CString) : CString :=
  match title with
  | none => []
  | some title =>
    ["------ ".toList, title, " (".toList, path,
      if underProcOrSys path then [] else (stamp.map (": ".toList ++ ·)).getD [],
      ") ------\n".toList].flatten

/-- `dump_file`: its result, and what it prints. -/
def dumpFile (title : Option CString) (path : CString) (file : Opened)
    (reads : List ReadResult) : Int × CString :=
  match file with
  | .failed strerror =>
    let named := match title with
      | none => []
      | some title => ["------ ".toList, title, " (".toList, path, ") ------\n".toList].flatten
    (-1, [named, "*** ".toList, path, ": ".toList, strerror, "\n".toList,
      if title.isSome then "\n".toList else []].flatten)
  | .opened stamp =>
    let (body, newline) := readLoop reads false
    (0, [heading title path stamp, body, if newline then [] else "\n".toList,
      if title.isSome then "\n".toList else []].flatten)

/-- The bytes up to the end of the file or the first error. -/
def contents : List ReadResult → List Char
  | .block bytes _ :: reads => bytes ++ contents reads
  | _ => []

/-- Every block up to the end is written. -/
def Written : List ReadResult → Prop
  | .block _ written :: reads => written = true ∧ Written reads
  | _ => True

/-- A text that is printed so as to end in a newline. -/
def closed (text : List Char) : List Char :=
  text ++ if text.getLast? == some '\n' then [] else ['\n']

/-- The flag belongs to the last block that was read. -/
theorem readLoop_eq (reads : List ReadResult) (hproper : ∀ r ∈ reads, r.Proper)
    (hwritten : Written reads) (newline : Bool) :
    readLoop reads newline =
      (contents reads,
        if contents reads = [] then newline else (contents reads).getLast? == some '\n') := by
  induction reads generalizing newline with
  | nil => rfl
  | cons r reads ih =>
    cases r with
    | block bytes written =>
      obtain ⟨rfl, hrest⟩ := hwritten
      have hbytes : bytes ≠ [] := (hproper _ List.mem_cons_self).1
      have hrest' := ih (fun r hr => hproper r (List.mem_cons_of_mem _ hr)) hrest
        (bytes.getLast? == some '\n')
      rw [readLoop, hrest', contents, if_neg (fun h => hbytes (List.append_eq_nil_iff.mp h).1)]
      by_cases hnil : contents reads = []
      · rw [if_pos hnil, hnil, List.append_nil]
      · rw [if_neg hnil, List.getLast?_append_of_ne_nil _ hnil]
    | endOfFile => rfl
    | error => rfl

/-- What `dump_file` prints of a file that it can open is determined by the bytes read, and
not by the blocks they came in. -/
theorem dumpFile_prints_contents (title : Option CString) (path : CString)
    (stamp : Option CString) {reads : List ReadResult} (hproper : ∀ r ∈ reads, r.Proper)
    (hwritten : Written reads) :
    dumpFile title path (.opened stamp) reads =
      (0, heading title path stamp ++ closed (contents reads) ++
        if title.isSome then "\n".toList else []) := by
  rw [dumpFile, readLoop_eq reads hproper hwritten]
  by_cases hnil : contents reads = []
  · simp [hnil, closed]
  · by_cases hlast : ((contents reads).getLast? == some '\n') = true
    · simp [hnil, closed, hlast]
    · simp [hnil, closed, hlast]

/-- A file in two blocks, of which only the second ends in a newline. -/
def twoBlocks : List ReadResult :=
  [.block "ab".toList true, .block "c\n".toList true, .endOfFile]

theorem dumpFile_prints_contents_twoBlocks :
    dumpFile none "/proc/version".toList (.opened none) twoBlocks = (0, "abc\n".toList) := by
  have hproper : ∀ r ∈ twoBlocks, r.Proper := by
    intro r hr
    rcases List.mem_cons.mp hr with rfl | hr
    · exact ⟨List.cons_ne_nil _ _, by decide⟩
    · rcases List.mem_cons.mp hr with rfl | hr
      · exact ⟨List.cons_ne_nil _ _, by decide⟩
      · obtain rfl := List.mem_singleton.mp hr
        trivial
  have hwritten : Written twoBlocks := ⟨rfl, rfl, trivial⟩
  exact (dumpFile_prints_contents none "/proc/version".toList none hproper hwritten).trans rfl

end Dumpstate
end LinuxLab
