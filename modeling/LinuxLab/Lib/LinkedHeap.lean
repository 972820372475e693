import Mathlib.Data.Finmap

/-!
# Linked lists in a heap

The blocks that `malloc` has handed out and `free` has not taken back, each with a value
and a pointer to the next one.  A null pointer is `none`.  To follow a pointer to a block
that is not there is undefined, and the operations that do so answer `none`.

`Linked` says which cells lie on the way from one pointer to another, and `Represents` that
a list of cells is reached from a head and that the heap has no other block.  The lemmas are
about the edits that list code makes: a new block in front of the head, a value written in
place, and a block taken out by way of the pointer that led to it.
-/

namespace LinuxLab
namespace Lib

abbrev Addr := Nat

structure Cell (β : Type) where
  val : β
  next : Option Addr
deriving DecidableEq, Repr

abbrev Heap (β : Type) := Finmap (fun _ : Addr => Cell β)

/-- Where `malloc` puts a block: never over one that is in use. -/
structure Placement where
  place : Finset Addr → Addr
  fresh : ∀ used, place used ∉ used

variable {β : Type}

/-- The cells from the pointer `p` up to the pointer `q`. -/
def Linked (h : Heap β) : Option Addr → List (Addr × β) → Option Addr → Prop
  | p, [], q => p = q
  | p, (a, b) :: cells, q =>
    p = some a ∧ ∃ next, h.lookup a = some ⟨b, next⟩ ∧ Linked h next cells q

def addrs (cells : List (Addr × β)) : List Addr := cells.map Prod.fst

/-- The heap holds the list of cells behind `head`, and nothing else. -/
structure Represents (h : Heap β) (head : Option Addr) (cells : List (Addr × β)) : Prop where
  linked : Linked h head cells none
  distinct : (addrs cells).Nodup
  blocks : ∀ a, a ∈ h ↔ a ∈ addrs cells

/-- `prev->next = target`, or `head = target` when `prev` is null. -/
def relink (prev target head : Option Addr) (h : Heap β) : Option (Option Addr × Heap β) :=
  match prev with
  | none => some (target, h)
  | some a => (h.lookup a).map (fun c => (head, h.insert a { c with next := target }))

def free (a : Addr) (h : Heap β) : Option (Heap β) := if a ∈ h then some (h.erase a) else none

variable {h h' : Heap β} {p q : Option Addr} {cells front back : List (Addr × β)}

/-! ## Following the links -/

theorem addrs_append : addrs (front ++ back) = addrs front ++ addrs back :=
  List.map_append

theorem addrs_cons {a : Addr} {b : β} : addrs ((a, b) :: cells) = a :: addrs cells := rfl

theorem linked_append :
    Linked h p (front ++ back) q ↔ ∃ r, Linked h p front r ∧ Linked h r back q := by
  induction front generalizing p with
  | nil =>
    constructor
    · exact fun hback => ⟨p, rfl, hback⟩
    · rintro ⟨r, rfl, hback⟩
      exact hback
  | cons cell front ih =>
    obtain ⟨a, b⟩ := cell
    constructor
    · rintro ⟨hp, next, hcell, hrest⟩
      obtain ⟨r, hfront, hback⟩ := ih.mp hrest
      exact ⟨r, ⟨hp, next, hcell, hfront⟩, hback⟩
    · rintro ⟨r, ⟨hp, next, hcell, hfront⟩, hback⟩
      exact ⟨hp, next, hcell, ih.mpr ⟨r, hfront, hback⟩⟩

/-- A heap that has the same cells has the same links. -/
theorem Linked.congr (hlinked : Linked h p cells q)
    (hsame : ∀ a ∈ addrs cells, h'.lookup a = h.lookup a) : Linked h' p cells q := by
  induction cells generalizing p with
  | nil => exact hlinked
  | cons cell cells ih =>
    obtain ⟨a, b⟩ := cell
    obtain ⟨hp, next, hcell, hrest⟩ := hlinked
    refine ⟨hp, next, ?_, ih hrest (fun c hc => hsame c (List.mem_cons_of_mem a hc))⟩
    rw [hsame a List.mem_cons_self, hcell]

theorem Linked.mem (hlinked : Linked h p cells q) {a : Addr} (ha : a ∈ addrs cells) : a ∈ h := by
  induction cells generalizing p with
  | nil => exact absurd ha List.not_mem_nil
  | cons cell cells ih =>
    obtain ⟨c, b⟩ := cell
    obtain ⟨-, next, hcell, hrest⟩ := hlinked
    rcases List.mem_cons.mp ha with rfl | ha
    · exact Finmap.mem_of_lookup_eq_some hcell
    · exact ih hrest ha

/-- A list that ends at null is found from its first pointer alone. -/
theorem Linked.none_iff (hlinked : Linked h p cells none) : p = none ↔ cells = [] := by
  cases cells with
  | nil => exact iff_of_true hlinked rfl
  | cons cell cells =>
    rw [hlinked.1]
    exact iff_of_false (Option.some_ne_none _) (List.cons_ne_nil _ _)

theorem Linked.exists_cons {a : Addr} (hlinked : Linked h (some a) cells none) :
    ∃ b next rest, cells = (a, b) :: rest ∧ h.lookup a = some ⟨b, next⟩ ∧
      Linked h next rest none := by
  cases cells with
  | nil => exact absurd hlinked (Option.some_ne_none a)
  | cons cell rest =>
    obtain ⟨c, b⟩ := cell
    obtain ⟨hp, next, hcell, hrest⟩ := hlinked
    obtain rfl := Option.some.inj hp
    exact ⟨b, next, rest, rfl, hcell, hrest⟩

theorem Linked.unique {cells' : List (Addr × β)} (hlinked : Linked h p cells none)
    (hlinked' : Linked h p cells' none) : cells' = cells := by
  induction cells generalizing p cells' with
  | nil =>
    obtain rfl : p = none := hlinked
    exact hlinked'.none_iff.mp rfl
  | cons cell cells ih =>
    obtain ⟨a, b⟩ := cell
    obtain ⟨rfl, next, hcell, hrest⟩ := hlinked
    obtain ⟨b', next', rest, rfl, hcell', hrest'⟩ := hlinked'.exists_cons
    rw [hcell, Option.some.injEq, Cell.mk.injEq] at hcell'
    obtain ⟨rfl, rfl⟩ := hcell'
    rw [ih hrest hrest']

/-- A chain that starts at a block of the list is the rest of the list. -/
theorem Linked.suffix {a : Addr} {rest : List (Addr × β)} (hlinked : Linked h p cells none)
    (ha : a ∈ addrs cells) (hrest : Linked h (some a) rest none) : rest <:+ cells := by
  obtain ⟨cell, hmem, rfl⟩ := List.mem_map.mp ha
  obtain ⟨front, back, rfl⟩ := List.append_of_mem hmem
  obtain ⟨r, -, hback⟩ := linked_append.mp hlinked
  obtain rfl : r = some cell.1 := hback.1
  exact ⟨front, by rw [hback.unique hrest]⟩

/-! ## Edits -/

/-- A value written in place. -/
theorem Linked.write {a : Addr} {b c : β} {next : Option Addr}
    (hlinked : Linked h p (front ++ (a, b) :: back) q)
    (hdistinct : (addrs (front ++ (a, b) :: back)).Nodup) (hcell : h.lookup a = some ⟨b, next⟩) :
    Linked (h.insert a ⟨c, next⟩) p (front ++ (a, c) :: back) q := by
  obtain ⟨r, hfront, hr, next', hcell', hback⟩ := linked_append.mp hlinked
  rw [addrs_append, addrs_cons] at hdistinct
  have hnotFront : a ∉ addrs front := fun ha =>
    List.disjoint_of_nodup_append hdistinct ha List.mem_cons_self
  have hnotBack : a ∉ addrs back :=
    (List.nodup_cons.mp (List.Nodup.of_append_right hdistinct)).1
  rw [hcell, Option.some.injEq, Cell.mk.injEq] at hcell'
  obtain ⟨-, rfl⟩ := hcell'
  have hsame : ∀ l : List (Addr × β), a ∉ addrs l →
      ∀ x ∈ addrs l, (h.insert a ⟨c, next⟩).lookup x = h.lookup x := by
    intro l ha x hx
    exact Finmap.lookup_insert_of_ne h (fun hxa => ha (hxa ▸ hx))
  exact linked_append.mpr ⟨r, hfront.congr (hsame front hnotFront), hr, next,
    Finmap.lookup_insert h, hback.congr (hsame back hnotBack)⟩

/-- Turning a pointer writes no value. -/
theorem relink_val {prev target head' : Option Addr}
    (hrelink : relink prev target p h = some (head', h')) (c : Addr) :
    (h'.lookup c).map Cell.val = (h.lookup c).map Cell.val := by
  cases prev with
  | none =>
    rw [relink, Option.some.injEq, Prod.mk.injEq] at hrelink
    rw [hrelink.2]
  | some a =>
    obtain ⟨cell, hcell, heq⟩ := Option.map_eq_some_iff.mp hrelink
    rw [← (Prod.mk.inj heq).2]
    by_cases hca : c = a
    · rw [hca, Finmap.lookup_insert, hcell, Option.map_some, Option.map_some]
    · rw [Finmap.lookup_insert_of_ne h hca]

/-- Turning the pointer that leads out of a segment changes where the segment ends. -/
theorem relink_spec (hlinked : Linked h p front q) (hdistinct : (addrs front).Nodup)
    (target : Option Addr) :
    ∃ p' h', relink (front.getLast?.map Prod.fst) target p h = some (p', h') ∧
      Linked h' p' front target ∧ (∀ a, a ∉ addrs front → h'.lookup a = h.lookup a) ∧
      ∀ a, a ∈ h' ↔ a ∈ h := by
  rcases List.eq_nil_or_concat' front with rfl | ⟨init, ⟨a, b⟩, rfl⟩
  · exact ⟨target, h, rfl, rfl, fun _ _ => rfl, fun _ => Iff.rfl⟩
  · obtain ⟨r, hinit, hr, next, hcell, -⟩ := linked_append.mp hlinked
    rw [addrs_append] at hdistinct
    have hnotInit : a ∉ addrs init := fun ha =>
      List.disjoint_of_nodup_append hdistinct ha List.mem_cons_self
    refine ⟨p, h.insert a ⟨b, target⟩, ?_, ?_, fun c hc => ?_, fun c => ?_⟩
    · rw [List.getLast?_concat, Option.map_some, relink, hcell, Option.map_some]
    · refine linked_append.mpr ⟨r, hinit.congr (fun c hc => ?_), hr, target,
        Finmap.lookup_insert h, rfl⟩
      exact Finmap.lookup_insert_of_ne h (fun hca => hnotInit (hca ▸ hc))
    · rw [addrs_append, List.mem_append, not_or] at hc
      exact Finmap.lookup_insert_of_ne h (fun hca => hc.2 (hca ▸ List.mem_cons_self))
    · rw [Finmap.mem_insert]
      exact or_iff_right_of_imp (fun hca => hca ▸ Finmap.mem_of_lookup_eq_some hcell)

/-- A block taken out of the list, and still in the heap: it keeps its value and its pointer
to the rest. -/
theorem relink_unlink {a : Addr} {b : β} {next : Option Addr}
    (hlinked : Linked h p (front ++ (a, b) :: back) none)
    (hdistinct : (addrs (front ++ (a, b) :: back)).Nodup) (hcell : h.lookup a = some ⟨b, next⟩) :
    ∃ p' h', relink (front.getLast?.map Prod.fst) next p h = some (p', h') ∧
      Linked h' p' (front ++ back) none ∧ (∀ c, c ∉ addrs front → h'.lookup c = h.lookup c) ∧
      ∀ c, c ∈ h' ↔ c ∈ h := by
  obtain ⟨r, hfront, -, next', hcell', hback⟩ := linked_append.mp hlinked
  rw [hcell, Option.some.injEq, Cell.mk.injEq] at hcell'
  obtain ⟨-, rfl⟩ := hcell'
  rw [addrs_append] at hdistinct
  obtain ⟨p', h', heq, hfront', hother, hblocks⟩ :=
    relink_spec hfront (List.Nodup.of_append_left hdistinct) next
  refine ⟨p', h', heq, linked_append.mpr ⟨next, hfront', hback.congr (fun c hc => ?_)⟩, hother,
    hblocks⟩
  exact hother c (fun hcf =>
    List.disjoint_of_nodup_append hdistinct hcf (List.mem_cons_of_mem a hc))

namespace Represents

variable {head : Option Addr}

theorem empty : Represents (∅ : Heap β) none [] :=
  ⟨rfl, List.nodup_nil, fun _ => iff_of_false Finmap.notMem_empty List.not_mem_nil⟩

theorem keys_eq (hrep : Represents h head cells) : h.keys = (addrs cells).toFinset := by
  ext a
  rw [Finmap.mem_keys, List.mem_toFinset]
  exact hrep.blocks a

theorem card_keys (hrep : Represents h head cells) : h.keys.card = cells.length := by
  rw [hrep.keys_eq, List.toFinset_card_of_nodup hrep.distinct, addrs, List.length_map]

/-- A new block is linked in front of the head. -/
theorem push (hrep : Represents h head cells) {a : Addr} (ha : a ∉ h) (b : β) :
    Represents (h.insert a ⟨b, head⟩) (some a) ((a, b) :: cells) := by
  have hnew : a ∉ addrs cells := fun hmem => ha ((hrep.blocks a).mpr hmem)
  refine ⟨⟨rfl, head, Finmap.lookup_insert h, hrep.linked.congr (fun c hc => ?_)⟩,
    List.nodup_cons.mpr ⟨hnew, hrep.distinct⟩, fun c => ?_⟩
  · exact Finmap.lookup_insert_of_ne h (fun hca => hnew (hca ▸ hc))
  · rw [Finmap.mem_insert, addrs_cons, List.mem_cons, hrep.blocks c]

theorem write {a : Addr} {b : β} {next : Option Addr}
    (hrep : Represents h head (front ++ (a, b) :: back)) (hcell : h.lookup a = some ⟨b, next⟩)
    (c : β) : Represents (h.insert a ⟨c, next⟩) head (front ++ (a, c) :: back) := by
  have haddrs : addrs (front ++ (a, c) :: back) = addrs (front ++ (a, b) :: back) := by
    rw [addrs_append, addrs_append, addrs_cons, addrs_cons]
  refine ⟨hrep.linked.write hrep.distinct hcell, haddrs ▸ hrep.distinct, fun d => ?_⟩
  rw [Finmap.mem_insert, haddrs, hrep.blocks d]
  refine or_iff_right_of_imp (fun hd => ?_)
  rw [hd, addrs_append, addrs_cons]
  exact List.mem_append_right _ List.mem_cons_self

/-- A block is taken out and freed.  Until it is freed it can be read. -/
theorem unlink {a : Addr} {b : β} {next : Option Addr}
    (hrep : Represents h head (front ++ (a, b) :: back)) (hcell : h.lookup a = some ⟨b, next⟩) :
    ∃ head' h', relink (front.getLast?.map Prod.fst) next head h = some (head', h') ∧
      free a h' = some (h'.erase a) ∧ Linked (h'.erase a) next back none ∧
      Represents (h'.erase a) head' (front ++ back) := by
  have hdistinct := hrep.distinct
  obtain ⟨head', h', heq, hlinked, hother, hblocks⟩ :=
    relink_unlink hrep.linked hdistinct hcell
  rw [addrs_append, addrs_cons] at hdistinct
  obtain ⟨hnew, hrest⟩ := List.nodup_middle.mp hdistinct |> List.nodup_cons.mp
  have hnotFront : a ∉ addrs front := fun ha => hnew (List.mem_append_left _ ha)
  obtain ⟨r, -, -, next', hcell', hback⟩ := linked_append.mp hrep.linked
  rw [hcell, Option.some.injEq, Cell.mk.injEq] at hcell'
  obtain ⟨-, rfl⟩ := hcell'
  have hmem : a ∈ h' := Finmap.mem_of_lookup_eq_some ((hother a hnotFront).trans hcell)
  refine ⟨head', h', heq, if_pos hmem, hback.congr (fun c hc => ?_), ?_, ?_, fun c => ?_⟩
  · have hca : c ≠ a := fun hca => hnew (List.mem_append_right _ (hca ▸ hc))
    rw [Finmap.lookup_erase_ne hca]
    exact hother c (fun hcf => List.disjoint_of_nodup_append hrest hcf hc)
  · refine hlinked.congr (fun c hc => Finmap.lookup_erase_ne (fun hca => hnew ?_))
    rw [← addrs_append, ← hca]
    exact hc
  · rwa [addrs_append]
  · rw [Finmap.mem_erase, hblocks c, hrep.blocks c, addrs_append, addrs_append, addrs_cons,
      List.mem_append, List.mem_append, List.mem_cons]
    constructor
    · rintro ⟨hca, hc⟩
      exact hc.imp_right (fun hc => hc.resolve_left hca)
    · intro hc
      refine ⟨fun hca => hnew ?_, hc.imp_right Or.inr⟩
      rw [← hca, List.mem_append]
      exact hc

end Represents

end Lib
end LinuxLab
