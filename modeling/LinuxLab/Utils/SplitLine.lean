import LinuxLab.Lib.Strtok

/-!
# Splitting a command line

`toy_split_line` of `input.c`.  The tokens that `strtok` finds go to an array that starts with
64 pointers and grows by 64 whenever it is full, and a NULL goes behind the last.  A store
outside of the array is an outcome of its own, as is the exit on an allocation error.

The number of tokens and the capacity are `int`s.  At 2147483584 tokens the capacity would
become 2147483648; the sum wraps, and the request for the array is then one that no allocator
grants.
-/

namespace LinuxLab
namespace SplitLine

open Lib

/-- `TOY_TOK_BUFSIZE`. -/
def toyTokBufsize : Int := 64

/-- `TOY_TOK_DELIM`. -/
def toyTokDelim : CString := [' ', '\t', '\r', '\n', '\x07']

/-- The requests, in bytes, that the allocator grants during a call.  No object is larger
than `PTRDIFF_MAX`.  The requests of one call are all different. -/
structure Heap where
  grants : Nat → Bool
  bounded : ∀ bytes, grants bytes = true → bytes ≤ 9223372036854775807

/-- A cell of the array: what `malloc` left there, NULL, or a pointer into the line. -/
inductive Cell where
  | undefined
  | null
  | token (offset : Nat)
deriving DecidableEq, Repr

/-- The array is the list of its cells, and `mem` the bytes of the line. -/
structure State where
  bufsize : Int
  position : Int
  tokens : List Cell
  mem : List Char
  save : Nat

inductive Outcome where
  | returned (tokens : List Cell) (mem : List Char)
  | exited (bytes : Nat)
  | outside
  | unfinished

/-- `bufsize * sizeof(char *)`. -/
def arrayBytes (bufsize : Int) : Nat := toSizeT bufsize * 8 % 18446744073709551616

/-- `tokens[position] = cell`. -/
def storeCell (tokens : List Cell) (position : Int) (cell : Cell) : Option (List Cell) :=
  if 0 ≤ position ∧ position < tokens.length then some (tokens.set position.toNat cell) else none

/-- The array of `bytes` bytes that `realloc` returns. -/
def resize (tokens : List Cell) (bytes : Nat) : List Cell :=
  tokens.take (bytes / 8) ++ List.replicate (bytes / 8 - tokens.length) .undefined

/-- The array grows when it is full. -/
def makeRoom (heap : Heap) (s : State) : Except Outcome State :=
  if s.bufsize ≤ s.position then
    let bufsize := addInt s.bufsize toyTokBufsize
    if heap.grants (arrayBytes bufsize) = true then
      .ok { s with bufsize := bufsize, tokens := resize s.tokens (arrayBytes bufsize) }
    else .error (.exited (arrayBytes bufsize))
  else .ok s

/-- The body of the loop up to the next `strtok`. -/
def addToken (heap : Heap) (s : State) (token : Nat) : Except Outcome State :=
  match storeCell s.tokens s.position (.token token) with
  | none => .error .outside
  | some tokens => makeRoom heap { s with tokens := tokens, position := addInt s.position 1 }

/-- The last store of `toy_split_line`. -/
def terminate (s : State) : Outcome :=
  match storeCell s.tokens s.position .null with
  | none => .outside
  | some tokens => .returned tokens s.mem

/-- `strtok` and the loop. -/
def splitLoop (heap : Heap) : Nat → State → Outcome
  | 0, _ => .unfinished
  | fuel + 1, s =>
    match strtok toyTokDelim s.mem s.save with
    | ⟨none, mem, save⟩ => terminate { s with mem := mem, save := save }
    | ⟨some token, mem, save⟩ =>
      match addToken heap { s with mem := mem, save := save } token with
      | .error outcome => outcome
      | .ok t => splitLoop heap fuel t

/-- The first `strtok` starts at the line itself. -/
def firstState (line : List Char) : State :=
  ⟨toyTokBufsize, 0, resize [] (arrayBytes toyTokBufsize), line ++ [nul], 0⟩

/-- `toy_split_line` of a line and its terminator. -/
def toySplitLine (heap : Heap) (line : List Char) : Outcome :=
  if heap.grants (arrayBytes toyTokBufsize) = true then
    splitLoop heap (line.length + 1) (firstState line)
  else .exited (arrayBytes toyTokBufsize)

/-! ## The array -/

/-- The array after `k` tokens: it has a cell more than they take, up to the 64th. -/
structure Room (k : Nat) (s : State) : Prop where
  position : s.position = k
  bufsize : s.bufsize = s.tokens.length
  capacity : s.tokens.length = 64 * (k / 64 + 1)
  small : k < 2147483584

theorem Room.lt_length {k : Nat} {s : State} (h : Room k s) : k < s.tokens.length := by
  rw [h.capacity]
  omega

theorem Room.storeCell_eq {k : Nat} {s : State} (h : Room k s) (cell : Cell) :
    storeCell s.tokens s.position cell = some (s.tokens.set k cell) := by
  have hlt := h.lt_length
  rw [storeCell, h.position, if_pos (by omega), Int.toNat_natCast]

theorem take_set_concat {tokens : List Cell} {k : Nat} (h : k < tokens.length) (cell : Cell) :
    (tokens.set k cell).take (k + 1) = tokens.take k ++ [cell] := by
  rw [List.take_add_one, List.take_set, List.set_eq_of_length_le (List.length_take_le _ _),
    List.getElem?_set_self h, Option.toList_some]

theorem arrayBytes_natCast {n : Nat} (h : n ≤ intMax) : arrayBytes n = 8 * n := by
  rw [arrayBytes, toSizeT_natCast h]
  rw [intMax] at h
  omega

theorem length_resize {tokens : List Cell} {n : Nat} (h : tokens.length ≤ n) :
    (resize tokens (8 * n)).length = n := by
  rw [resize, Nat.mul_div_cancel_left n (by omega), List.length_append, List.length_replicate,
    List.length_take]
  omega

theorem take_resize {tokens : List Cell} {n : Nat} (h : tokens.length ≤ n) :
    (resize tokens (8 * n)).take tokens.length = tokens := by
  rw [resize, Nat.mul_div_cancel_left n (by omega), List.take_of_length_le h, List.take_left]

/-- What is asked for when the capacity has wrapped. -/
theorem not_grants_wrapped (heap : Heap) :
    ¬heap.grants (arrayBytes (addInt 2147483584 toyTokBufsize)) = true := by
  intro h
  exact absurd (heap.bounded _ h) (by decide)

/-- An array of which `k` cells are taken, at least one of them and perhaps all. -/
theorem makeRoom_spec {heap : Heap} {k : Nat} {s : State} (hposition : s.position = (k + 1 : Nat))
    (hbufsize : s.bufsize = s.tokens.length) (hcapacity : s.tokens.length = 64 * (k / 64 + 1))
    (hsmall : k < 2147483584) :
    (∃ t, makeRoom heap s = .ok t ∧ Room (k + 1) t ∧ t.mem = s.mem ∧ t.save = s.save ∧
      t.tokens.take (k + 1) = s.tokens.take (k + 1)) ∨
    ∃ bytes, makeRoom heap s = .error (.exited bytes) ∧ heap.grants bytes = false ∧
      (bytes = 512 * ((k + 1) / 64 + 1) ∨ 2147483584 ≤ k + 1) := by
  dsimp only [makeRoom]
  by_cases hfull : s.tokens.length ≤ k + 1
  · rw [if_pos (by omega)]
    by_cases hlast : k + 1 = 2147483584
    · have hwrapped : s.bufsize = 2147483584 := by omega
      have hrefused := not_grants_wrapped heap
      rw [hwrapped, if_neg hrefused]
      exact .inr ⟨_, rfl, Bool.eq_false_iff.mpr hrefused, .inr (by omega)⟩
    · have hnext : addInt s.bufsize toyTokBufsize = (64 * ((k + 1) / 64 + 1) : Nat) := by
        rw [toyTokBufsize, addInt_eq (by omega) (by rw [intMax]; omega)]
        omega
      rw [hnext, arrayBytes_natCast (by rw [intMax]; omega)]
      by_cases hgrants : heap.grants (8 * (64 * ((k + 1) / 64 + 1))) = true
      · rw [if_pos hgrants]
        have hle : s.tokens.length ≤ 64 * ((k + 1) / 64 + 1) := by omega
        have hlength := length_resize hle
        refine .inl ⟨_, rfl, ⟨hposition, ?_, hlength, by omega⟩, rfl, rfl, ?_⟩
        · rw [hlength]
        · have hkeep := take_resize hle
          have hall : s.tokens.length = k + 1 := by omega
          rw [hall] at hkeep
          exact hkeep.trans (List.take_of_length_le hfull).symm
      · rw [if_neg hgrants]
        exact .inr ⟨_, rfl, Bool.eq_false_iff.mpr hgrants, .inl (by omega)⟩
  · rw [if_neg (by omega)]
    exact .inl ⟨s, rfl, ⟨hposition, hbufsize, by omega, by omega⟩, rfl, rfl, rfl⟩

/-- A token is stored in its cell and leaves room for one more, or the exit is for a request
that was refused. -/
theorem addToken_spec {heap : Heap} {k : Nat} {s : State} (h : Room k s) (token : Nat) :
    (∃ t, addToken heap s token = .ok t ∧ Room (k + 1) t ∧ t.mem = s.mem ∧ t.save = s.save ∧
      t.tokens.take (k + 1) = s.tokens.take k ++ [.token token]) ∨
    ∃ bytes, addToken heap s token = .error (.exited bytes) ∧ heap.grants bytes = false ∧
      (bytes = 512 * ((k + 1) / 64 + 1) ∨ 2147483584 ≤ k + 1) := by
  have hsmall := h.small
  have hposition : addInt s.position 1 = (k + 1 : Nat) := by
    rw [h.position, addInt_eq (by omega) (by rw [intMax]; omega)]
    rfl
  have hlength : (s.tokens.set k (.token token)).length = s.tokens.length := List.length_set
  unfold addToken
  rw [h.storeCell_eq, hposition, ← take_set_concat h.lt_length]
  apply makeRoom_spec rfl
  · rw [hlength]
    exact h.bufsize
  · exact hlength.trans h.capacity
  · exact hsmall

/-! ## The loop -/

/-- The array begins with pointers to the words, in order, and one NULL. -/
def IsVector (tokens : List Cell) (mem : List Char) (words : List CString) : Prop :=
  ∃ offsets : List Nat, tokens.take (offsets.length + 1) = offsets.map .token ++ [.null] ∧
    offsets.map (fun q => stringAt (mem.drop q)) = words

/-- The pointers to the tokens found so far are in the array, and it has room for one more. -/
structure Progress (text : CString) (s : State) (found : List (Nat × CString))
    (todo : CString) : Prop where
  room : Room found.length s
  cells : s.tokens.take found.length = found.map (fun f => .token f.1)
  scanned : Scanned toyTokDelim text s.mem s.save found todo

theorem terminate_spec {text todo : CString} {s : State} {found : List (Nat × CString)}
    (h : Progress text s found todo) :
    ∃ tokens, terminate s = .returned tokens s.mem ∧
      IsVector tokens s.mem (found.map Prod.snd) := by
  unfold terminate
  rw [h.room.storeCell_eq]
  refine ⟨_, rfl, found.map Prod.fst, ?_, ?_⟩
  · rw [List.length_map, take_set_concat h.room.lt_length, h.cells, List.map_map]
    rfl
  · rw [List.map_map]
    exact h.scanned.map_stringAt

/-- A token that `strtok` has found is added, or a request was refused. -/
theorem Progress.addToken {heap : Heap} {text todo todo' r : CString} {mem : List Char}
    {save q : Nat} {s : State} {found : List (Nat × CString)} (h : Progress text s found todo)
    (hscanned : Scanned toyTokDelim text mem save (found ++ [(q, r)]) todo') :
    (∃ t, addToken heap { s with mem := mem, save := save } q = .ok t ∧
      Progress text t (found ++ [(q, r)]) todo') ∨
    ∃ bytes, SplitLine.addToken heap { s with mem := mem, save := save } q =
      .error (.exited bytes) ∧ heap.grants bytes = false ∧
      (bytes = 512 * ((found.length + 1) / 64 + 1) ∨ 2147483584 ≤ found.length + 1) := by
  have hroom : Room found.length { s with mem := mem, save := save } :=
    ⟨h.room.position, h.room.bufsize, h.room.capacity, h.room.small⟩
  have hlength : (found ++ [(q, r)]).length = found.length + 1 := List.length_append
  refine (addToken_spec hroom q).imp_left ?_
  rintro ⟨t, ht, htroom, htmem, htsave, htcells⟩
  refine ⟨t, ht, hlength ▸ htroom, ?_, ?_⟩
  · rw [hlength, htcells, List.map_append]
    exact congrArg (· ++ [.token q]) h.cells
  · rw [htmem, htsave]
    exact hscanned

/-- What a call returns or exits with, when the line has these tokens. -/
def Splits (heap : Heap) (words : List CString) (outcome : Outcome) : Prop :=
  (∃ tokens mem, outcome = .returned tokens mem ∧ IsVector tokens mem words) ∨
  ∃ bytes, outcome = .exited bytes ∧ heap.grants bytes = false ∧
    (bytes ≤ 512 * (words.length / 64 + 1) ∨ 2147483584 ≤ words.length)

/-- The fuel is enough when it exceeds what is left of the text. -/
theorem splits_splitLoop {heap : Heap} {text : CString} {words : List CString}
    (hwords : IsRuns (inToken toyTokDelim) text words) {fuel : Nat} {s : State}
    {found : List (Nat × CString)} {todo : CString} (h : Progress text s found todo)
    (hfuel : todo.length < fuel) : Splits heap words (splitLoop heap fuel s) := by
  induction fuel generalizing s found todo with
  | zero => exact absurd hfuel (Nat.not_lt_zero _)
  | succ fuel ih =>
    unfold splitLoop
    rcases h.scanned.next (by decide) with ⟨save, hstrtok, htokens⟩ |
      ⟨q, r, mem, save, todo', hstrtok, hscanned, hless⟩
    · obtain ⟨tokens, hend, hvector⟩ := terminate_spec h
      rw [hstrtok, hwords.eq_runs, ← htokens.eq_runs]
      exact .inl ⟨tokens, s.mem, hend, hvector⟩
    · rw [hstrtok]
      dsimp only
      rcases h.addToken hscanned with ⟨t, ht, hprogress⟩ | ⟨bytes, hexit, hrefused, hbytes⟩
      · rw [ht]
        exact ih hprogress (by omega)
      · have hle := hscanned.length_le hwords
        rw [List.length_append, List.length_singleton] at hle
        rw [hexit]
        exact .inr ⟨bytes, rfl, hrefused, by omega⟩

theorem progress_firstState (line : List Char) :
    Progress (stringAt line) (firstState line) [] (stringAt line) where
  room := ⟨rfl, rfl, rfl, by decide⟩
  cells := rfl
  scanned := by
    obtain ⟨post, hpost⟩ := exists_stringAt_append line
    show Scanned toyTokDelim (stringAt line) (line ++ [nul]) 0 [] (stringAt line)
    rw [hpost]
    exact scanned_nil _ (nul_notMem_stringAt line)

theorem splits_toySplitLine (heap : Heap) {line : List Char} {words : List CString}
    (hwords : IsRuns (inToken toyTokDelim) (stringAt line) words) :
    Splits heap words (toySplitLine heap line) := by
  unfold toySplitLine
  by_cases hgrants : heap.grants (arrayBytes toyTokBufsize) = true
  · rw [if_pos hgrants]
    have hle := stringAt_length_le line
    exact splits_splitLoop hwords (progress_firstState line) (by omega)
  · rw [if_neg hgrants]
    refine .inr ⟨_, rfl, Bool.eq_false_iff.mpr hgrants, .inl ?_⟩
    show 512 ≤ _
    omega

/-- The line is split into its words, whatever their number: the vector that is returned has
the maximal runs of other characters than the delimiters, and NULL.  A call that does not
return was refused the memory for it, and no store is outside of the array. -/
theorem toySplitLine_exact (heap : Heap) (line : List Char) :
    ∃ words, IsRuns (inToken toyTokDelim) (stringAt line) words ∧
      Splits heap words (toySplitLine heap line) :=
  ⟨_, isRuns_runs _ _, splits_toySplitLine heap (isRuns_runs _ _)⟩

end SplitLine
end LinuxLab
