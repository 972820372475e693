import LinuxLab.Lib.CString

/-!
# Words of a text, and strtok

`IsRuns p l rs` says that `rs` are the maximal runs in `l` of elements that satisfy `p`, in
order.  `strtok` finds them one by one in memory: it returns the offset of a run, puts a NUL
behind it, over the delimiter that is there, and goes on behind that.
-/

namespace LinuxLab
namespace Lib

/-! ## Maximal runs -/

section Runs

variable {α : Type} {p : α → Bool}

/-- A run ends at the end of the list or before an element that does not satisfy `p`, and
begins at the start of the list or behind one. -/
inductive IsRuns (p : α → Bool) : List α → List (List α) → Prop where
  | gap {gap : List α} (hgap : ∀ c ∈ gap, p c = false) : IsRuns p gap []
  | run {gap r rest : List α} {rs : List (List α)} (hgap : ∀ c ∈ gap, p c = false) (hne : r ≠ [])
      (hr : ∀ c ∈ r, p c = true) (hrest : ∀ c ∈ rest.head?, p c = false) (h : IsRuns p rest rs) :
      IsRuns p (gap ++ (r ++ rest)) (r :: rs)

theorem IsRuns.cons_gap {c : α} {l : List α} {rs : List (List α)} (hc : p c = false)
    (h : IsRuns p l rs) : IsRuns p (c :: l) rs := by
  cases h with
  | gap hgap => exact .gap (List.forall_mem_cons.mpr ⟨hc, hgap⟩)
  | run hgap hne hr hrest h =>
    rw [← List.cons_append]
    exact .run (List.forall_mem_cons.mpr ⟨hc, hgap⟩) hne hr hrest h

/-- A list is a gap, or a gap and a run and the rest. -/
theorem exists_run (p : α → Bool) (l : List α) :
    (∀ c ∈ l, p c = false) ∨ ∃ gap r rest, l = gap ++ (r ++ rest) ∧ (∀ c ∈ gap, p c = false) ∧
      r ≠ [] ∧ (∀ c ∈ r, p c = true) ∧ ∀ c ∈ rest.head?, p c = false := by
  induction l with
  | nil => exact .inl (List.forall_mem_nil _)
  | cons c l ih =>
    cases hc : p c with
    | false =>
      rcases ih with hgap | ⟨gap, r, rest, rfl, hgap, hr⟩
      · exact .inl (List.forall_mem_cons.mpr ⟨hc, hgap⟩)
      · exact .inr ⟨c :: gap, r, rest, rfl, List.forall_mem_cons.mpr ⟨hc, hgap⟩, hr⟩
    | true =>
      right
      refine ⟨[], c :: l.takeWhile p, l.dropWhile p, ?_, List.forall_mem_nil _,
        List.cons_ne_nil _ _, ?_, ?_⟩
      · rw [List.nil_append, List.cons_append, List.takeWhile_append_dropWhile]
      · exact List.forall_mem_cons.mpr ⟨hc, fun d hd => List.mem_takeWhile_imp hd⟩
      · intro d hd
        have hstop := List.head?_dropWhile_not p l
        rw [Option.mem_def.mp hd] at hstop
        exact hstop

/-- The runs are the pieces between the other elements that are not empty. -/
def runs (p : α → Bool) (l : List α) : List (List α) :=
  (l.splitOnP (fun c => !p c)).filter (fun r => !r.isEmpty)

theorem runs_gap {gap : List α} (hgap : ∀ c ∈ gap, p c = false) (l : List α) :
    runs p (gap ++ l) = runs p l := by
  induction gap with
  | nil => rfl
  | cons c gap ih =>
    have hc := hgap c List.mem_cons_self
    rw [← ih (fun d hd => hgap d (List.mem_cons_of_mem c hd)), List.cons_append, runs,
      List.splitOnP_cons_eq_if_modifyHead, if_pos (by rw [hc]; rfl)]
    rfl

theorem runs_run {r rest : List α} (hne : r ≠ []) (hr : ∀ c ∈ r, p c = true)
    (hrest : ∀ c ∈ rest.head?, p c = false) : runs p (r ++ rest) = r :: runs p rest := by
  have hkeep : (!r.isEmpty) = true := by
    cases r with
    | nil => exact absurd rfl hne
    | cons c r => rfl
  have hnot : ∀ c ∈ r, (!p c) = false := fun c hc => by rw [hr c hc]; rfl
  cases rest with
  | nil =>
    rw [List.append_nil, runs, List.splitOnP_eq_singleton hnot, List.filter_cons, if_pos hkeep]
    rfl
  | cons c rest =>
    have hc : p c = false := hrest c rfl
    have hsplit := List.splitOnP_append_cons_of_forall_mem hnot c (by rw [hc]; rfl) rest
    have hgap := runs_gap (List.forall_mem_singleton.mpr hc) rest
    rw [List.singleton_append] at hgap
    rw [hgap, runs, hsplit, List.filter_cons, if_pos hkeep]
    rfl

theorem isRuns_runs (p : α → Bool) (l : List α) : IsRuns p l (runs p l) := by
  induction hn : l.length using Nat.strong_induction_on generalizing l with
  | _ n ih =>
    subst hn
    rcases exists_run p l with hgap | ⟨gap, r, rest, rfl, hgap, hne, hr, hrest⟩
    · have hempty := runs_gap hgap []
      rw [List.append_nil] at hempty
      rw [hempty]
      exact .gap hgap
    · have hpos := List.length_pos_iff.mpr hne
      have hless : rest.length < (gap ++ (r ++ rest)).length := by
        rw [List.length_append, List.length_append]
        omega
      rw [runs_gap hgap, runs_run hne hr hrest]
      exact .run hgap hne hr hrest (ih _ hless rest rfl)

theorem IsRuns.eq_runs {l : List α} {rs : List (List α)} (h : IsRuns p l rs) : rs = runs p l := by
  induction h with
  | gap hgap =>
    have hempty := runs_gap hgap []
    rw [List.append_nil] at hempty
    rw [hempty]
    rfl
  | run hgap hne hr hrest _ ih => rw [runs_gap hgap, runs_run hne hr hrest, ih]

end Runs

/-! ## strtok -/

/-- The delimiters at the start of the text. -/
def strspn (delim : CString) (text : List Char) : Nat :=
  (text.takeWhile (fun c => delim.contains c)).length

/-- The characters before the first delimiter or NUL. -/
def strcspn (delim : CString) (text : List Char) : Nat :=
  (text.takeWhile (fun c => c ≠ nul && !delim.contains c)).length

theorem strspn_append {delim : CString} {a b : List Char}
    (ha : ∀ c ∈ a, delim.contains c = true) (hb : ∀ c ∈ b.head?, delim.contains c = false) :
    strspn delim (a ++ b) = a.length := by
  rw [strspn, takeWhile_append_stop ha hb]

theorem strcspn_append {delim : CString} {a b : List Char}
    (ha : ∀ c ∈ a, c ≠ nul ∧ delim.contains c = false)
    (hb : ∀ c ∈ b.head?, c = nul ∨ delim.contains c = true) :
    strcspn delim (a ++ b) = a.length := by
  rw [strcspn, takeWhile_append_stop]
  · intro c hc
    rw [decide_eq_true (ha c hc).1, (ha c hc).2]
    rfl
  · intro c hc
    rcases hb c hc with rfl | hdelim
    · rfl
    · rw [hdelim]
      exact Bool.and_false _

/-- What `strtok` returns, the memory after it and the pointer that it keeps. -/
structure Strtok where
  token : Option Nat
  mem : List Char
  save : Nat

/-- `strtok` from offset `s`. -/
def strtok (delim : CString) (mem : List Char) (s : Nat) : Strtok :=
  let start := s + strspn delim (mem.drop s)
  if mem.getD start nul = nul then ⟨none, mem, start⟩
  else
    let stop := start + strcspn delim (mem.drop start)
    if mem.getD stop nul = nul then ⟨some start, mem, stop⟩
    else ⟨some start, mem.set stop nul, stop + 1⟩

/-- The string `r` and its terminator are at offset `q`. -/
def Reads (mem : List Char) (q : Nat) (r : CString) : Prop :=
  (mem.drop q).take (r.length + 1) = r ++ [nul]

theorem Reads.stringAt_eq {mem : List Char} {q : Nat} {r : CString} (h : Reads mem q r)
    (hr : nul ∉ r) : stringAt (mem.drop q) = r := by
  have hsplit : r ++ nul :: (mem.drop q).drop (r.length + 1) = mem.drop q := by
    rw [List.append_cons, ← h, List.take_append_drop]
  rw [← hsplit, stringAt_append_nul, stringAt_of_notMem hr]

/-- A string stays where the cells up to its terminator do not change. -/
theorem Reads.congr {mem mem' : List Char} {q n : Nat} {r : CString} (h : Reads mem q r)
    (hn : q + r.length < n) (hmem : mem'.take n = mem.take n) : Reads mem' q r := by
  have hcells : ∀ m : List Char, (m.drop q).take (r.length + 1) =
      ((m.take n).drop q).take (r.length + 1) := by
    intro m
    rw [List.drop_take, List.take_take, Nat.min_eq_left (by omega)]
  unfold Reads
  rw [hcells, hmem, ← hcells]
  exact h

section

variable {delim : CString} {mem : List Char} {s : Nat}

theorem getD_of_drop {a b : List Char} (h : mem.drop s = a ++ b) :
    mem.getD (s + a.length) nul = b.headD nul := by
  rw [List.getD_eq_getElem?_getD, ← List.getElem?_drop, h,
    List.getElem?_append_right (Nat.le_refl _), Nat.sub_self, List.headD_eq_head?_getD,
    List.head?_eq_getElem?]

theorem drop_of_drop {a b : List Char} (h : mem.drop s = a ++ b) :
    mem.drop (s + a.length) = b := by
  rw [← List.drop_drop, h, List.drop_left]

/-- Nothing but delimiters is left. -/
theorem strtok_gap {text post : List Char} (hdelim : delim.contains nul = false)
    (h : mem.drop s = text ++ nul :: post) (htext : ∀ c ∈ text, delim.contains c = true) :
    strtok delim mem s = ⟨none, mem, s + text.length⟩ := by
  have hspn : strspn delim (mem.drop s) = text.length := by
    rw [h]
    apply strspn_append htext
    rintro c ⟨⟩
    exact hdelim
  have hend : mem.getD (s + text.length) nul = nul := getD_of_drop h
  unfold strtok
  rw [hspn, if_pos hend]

/-- A string that starts at `q` and is followed by a NUL. -/
theorem reads_of_drop {q : Nat} {r rest : List Char} (h : mem.drop q = r ++ nul :: rest) :
    Reads mem q r := by
  have hlength : (r ++ [nul]).length = r.length + 1 := List.length_append
  rw [Reads, h, List.append_cons, ← hlength, List.take_left]

theorem strtok_run {gap r rest post : List Char} (hdelim : delim.contains nul = false)
    (h : mem.drop s = gap ++ (r ++ (rest ++ nul :: post)))
    (hgap : ∀ c ∈ gap, delim.contains c = true) (hne : r ≠ [])
    (hr : ∀ c ∈ r, c ≠ nul ∧ delim.contains c = false)
    (hrest : ∀ c ∈ rest.head?, delim.contains c = true) :
    ∃ mem' save, strtok delim mem s = ⟨some (s + gap.length), mem', save⟩ ∧
      Reads mem' (s + gap.length) r ∧ s + gap.length + r.length ≤ save ∧
      mem'.take (s + gap.length + r.length) = mem.take (s + gap.length + r.length) ∧
      mem'.drop save = rest.tail ++ nul :: post := by
  obtain ⟨c, r', rfl⟩ := List.exists_cons_of_ne_nil hne
  have hc := hr c List.mem_cons_self
  have hspn : strspn delim (mem.drop s) = gap.length := by
    rw [h]
    apply strspn_append hgap
    rintro d ⟨⟩
    exact hc.2
  have hstart := drop_of_drop h
  have hfirst : mem.getD (s + gap.length) nul = c := getD_of_drop h
  have hcspn : strcspn delim (mem.drop (s + gap.length)) = (c :: r').length := by
    rw [hstart]
    apply strcspn_append hr
    cases rest with
    | nil =>
      rintro d ⟨⟩
      exact .inl rfl
    | cons e rest => exact fun d hd => .inr (hrest d hd)
  have hstop := getD_of_drop hstart
  have hbehind := drop_of_drop hstart
  dsimp only [strtok]
  rw [hspn, hfirst, if_neg hc.1, hcspn, hstop]
  cases rest with
  | nil => exact ⟨mem, _, if_pos rfl, reads_of_drop hstart, Nat.le_refl _, rfl, hbehind⟩
  | cons e rest =>
    have he : e ≠ nul := by
      rintro rfl
      exact absurd (hrest nul rfl) (by rw [hdelim]; decide)
    refine ⟨_, _, if_neg he, ?_, Nat.le_succ _, ?_, ?_⟩
    · apply reads_of_drop
      rw [List.drop_set, if_neg (by omega), hstart, Nat.add_sub_cancel_left,
        List.set_append_right _ _ (Nat.le_refl _), Nat.sub_self]
      rfl
    · rw [List.take_set, List.set_eq_of_length_le (List.length_take_le _ _)]
    · rw [List.drop_set_of_lt (Nat.lt_add_one _), ← List.drop_drop, hbehind]
      rfl

end

/-! ## Scanning a text -/

/-- The characters of a token. -/
def inToken (delim : CString) (c : Char) : Bool := !delim.contains c

/-- The tokens of `text` that were found, each with its offset, are in memory, and `todo` is
still to be scanned. -/
structure Scanned (delim text : CString) (mem : List Char) (save : Nat)
    (found : List (Nat × CString)) (todo : CString) : Prop where
  reads : ∀ f ∈ found, Reads mem f.1 f.2 ∧ f.1 + f.2.length ≤ save
  clean : ∀ f ∈ found, nul ∉ f.2
  ahead : ∃ post, mem.drop save = todo ++ nul :: post
  todo_clean : nul ∉ todo
  tokens : ∀ rs, IsRuns (inToken delim) todo rs →
    IsRuns (inToken delim) text (found.map Prod.snd ++ rs)

theorem scanned_nil (delim : CString) {text post : List Char} (h : nul ∉ text) :
    Scanned delim text (text ++ nul :: post) 0 [] text where
  reads := List.forall_mem_nil _
  clean := List.forall_mem_nil _
  ahead := ⟨post, rfl⟩
  todo_clean := h
  tokens := fun _ hrs => hrs

/-- The tokens, read from where they were found. -/
theorem Scanned.map_stringAt {delim text todo : CString} {mem : List Char} {save : Nat}
    {found : List (Nat × CString)} (h : Scanned delim text mem save found todo) :
    found.map (fun f => stringAt (mem.drop f.1)) = found.map Prod.snd :=
  List.map_congr_left (fun f hf => (h.reads f hf).1.stringAt_eq (h.clean f hf))

theorem Scanned.length_le {delim text todo : CString} {mem : List Char} {save : Nat}
    {found : List (Nat × CString)} (h : Scanned delim text mem save found todo)
    {words : List CString} (hwords : IsRuns (inToken delim) text words) :
    found.length ≤ words.length := by
  have htokens := h.tokens _ (isRuns_runs _ todo)
  rw [hwords.eq_runs, ← htokens.eq_runs, List.length_append, List.length_map]
  omega

/-- A run that is found at `q` is one token more. -/
theorem Scanned.run {delim text gap r rest : CString} {mem mem' : List Char} {save save' q : Nat}
    {found : List (Nat × CString)} (h : Scanned delim text mem save found (gap ++ (r ++ rest)))
    (hgap : ∀ c ∈ gap, inToken delim c = false) (hne : r ≠ [])
    (hr : ∀ c ∈ r, inToken delim c = true) (hrest : ∀ c ∈ rest.head?, inToken delim c = false)
    (hq : save ≤ q) (hreads : Reads mem' q r) (hsave : q + r.length ≤ save')
    (hkeep : mem'.take (q + r.length) = mem.take (q + r.length))
    (hahead : ∃ post, mem'.drop save' = rest.tail ++ nul :: post) :
    Scanned delim text mem' save' (found ++ [(q, r)]) rest.tail := by
  have hpos := List.length_pos_iff.mpr hne
  refine ⟨?_, ?_, hahead, ?_, ?_⟩
  · intro f hf
    rcases List.mem_append.mp hf with hf | hf
    · obtain ⟨hf, hle⟩ := h.reads f hf
      exact ⟨hf.congr (by omega) hkeep, by omega⟩
    · cases List.mem_singleton.mp hf
      exact ⟨hreads, hsave⟩
  · intro f hf
    rcases List.mem_append.mp hf with hf | hf
    · exact h.clean f hf
    · cases List.mem_singleton.mp hf
      exact fun hmem => h.todo_clean (List.mem_append_right _ (List.mem_append_left _ hmem))
  · intro hmem
    have hmem := List.mem_of_mem_tail hmem
    exact h.todo_clean (List.mem_append_right _ (List.mem_append_right _ hmem))
  · intro rs hrs
    have hruns : IsRuns (inToken delim) rest rs := by
      cases rest with
      | nil => exact hrs
      | cons c rest => exact hrs.cons_gap (hrest c rfl)
    rw [List.map_append, List.append_assoc]
    exact h.tokens (r :: rs) (.run hgap hne hr hrest hruns)

/-- The next `strtok` finds that all tokens were found, or one more. -/
theorem Scanned.next {delim text todo : CString} {mem : List Char} {save : Nat}
    {found : List (Nat × CString)} (hdelim : delim.contains nul = false)
    (h : Scanned delim text mem save found todo) :
    (∃ save', strtok delim mem save = ⟨none, mem, save'⟩ ∧
      IsRuns (inToken delim) text (found.map Prod.snd)) ∨
    ∃ q r mem' save' todo', strtok delim mem save = ⟨some q, mem', save'⟩ ∧
      Scanned delim text mem' save' (found ++ [(q, r)]) todo' ∧ todo'.length < todo.length := by
  obtain ⟨post, hahead⟩ := h.ahead
  have hdelims : ∀ c, inToken delim c = false → delim.contains c = true := by
    intro c hc
    rwa [inToken, Bool.not_eq_false'] at hc
  rcases exists_run (inToken delim) todo with hgap | ⟨gap, r, rest, rfl, hgap, hne, hr, hrest⟩
  · have htokens := h.tokens [] (.gap hgap)
    rw [List.append_nil] at htokens
    exact .inl ⟨_, strtok_gap hdelim hahead (fun c hc => hdelims c (hgap c hc)), htokens⟩
  · have hclean : ∀ c ∈ r, c ≠ nul ∧ delim.contains c = false := by
      intro c hc
      refine ⟨?_, ?_⟩
      · rintro rfl
        exact h.todo_clean (List.mem_append_right _ (List.mem_append_left _ hc))
      · have hin := hr c hc
        rwa [inToken, Bool.not_eq_true'] at hin
    rw [List.append_assoc, List.append_assoc] at hahead
    obtain ⟨mem', save', hstrtok, hreads, hsave, hkeep, hahead'⟩ := strtok_run hdelim hahead
      (fun c hc => hdelims c (hgap c hc)) hne hclean (fun c hc => hdelims c (hrest c hc))
    refine .inr ⟨_, r, mem', save', rest.tail, hstrtok, h.run hgap hne hr hrest
      (Nat.le_add_right _ _) hreads hsave hkeep ⟨post, hahead'⟩, ?_⟩
    have hpos := List.length_pos_iff.mpr hne
    rw [List.length_append, List.length_append, List.length_tail]
    omega

end Lib
end LinuxLab
