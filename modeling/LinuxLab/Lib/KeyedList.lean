import Mathlib.Data.Finmap

/-!
# Lists searched by a key

A singly linked list whose nodes are found by comparing one field: `lookup` walks
to the first node with the key, `unlink` takes that node out, `update` rewrites it
in place.  `Distinct` says that no two nodes share a key.  A distinct list is a
finite map, and `toMap` is that map: the three walks are the map's lookup, erase
and the identity on the keys.
-/

namespace LinuxLab
namespace Lib
namespace KeyedList

variable {β κ : Type} (key : β → κ)

def Distinct (l : List β) : Prop := (l.map key).Nodup

theorem Distinct.filter {key : β → κ} {l : List β} (h : Distinct key l) (p : β → Bool) :
    Distinct key (l.filter p) :=
  h.sublist (List.filter_sublist.map key)

variable [DecidableEq κ]

def lookup (k : κ) : List β → Option β
  | [] => none
  | curr :: next => if key curr = k then some curr else lookup k next

def unlink (k : κ) : List β → List β
  | [] => []
  | curr :: next => if key curr = k then next else curr :: unlink k next

def update (k : κ) (f : β → β) : List β → List β
  | [] => []
  | curr :: next => if key curr = k then f curr :: next else curr :: update k f next

/-- The finite map a list stands for.  Where two nodes share a key, the first one
counts, as it does for `lookup`. -/
def toMap (l : List β) : Finmap (fun _ : κ => β) :=
  (l.map (fun b => (⟨key b, b⟩ : Sigma (fun _ : κ => β)))).toFinmap

variable {key}

theorem lookup_cons_self {k : κ} {b : β} {l : List β} (h : key b = k) :
    lookup key k (b :: l) = some b := by
  rw [lookup, if_pos h]

theorem lookup_cons_ne {k : κ} {b : β} {l : List β} (h : key b ≠ k) :
    lookup key k (b :: l) = lookup key k l := by
  rw [lookup, if_neg h]

theorem unlink_cons_self {k : κ} {b : β} {l : List β} (h : key b = k) :
    unlink key k (b :: l) = l := by
  rw [unlink, if_pos h]

theorem unlink_cons_ne {k : κ} {b : β} {l : List β} (h : key b ≠ k) :
    unlink key k (b :: l) = b :: unlink key k l := by
  rw [unlink, if_neg h]

theorem lookup_eq_none {k : κ} {l : List β} : lookup key k l = none ↔ k ∉ l.map key := by
  induction l with
  | nil => simp [lookup]
  | cons b l ih =>
    by_cases h : key b = k
    · rw [lookup_cons_self h]
      simp [h]
    · rw [lookup_cons_ne h, ih, List.map_cons, List.mem_cons, not_or]
      exact ⟨fun hl => ⟨fun hk => h hk.symm, hl⟩, fun hl => hl.2⟩

theorem lookup_isSome {k : κ} {l : List β} :
    (lookup key k l).isSome = true ↔ k ∈ l.map key := by
  rw [Option.isSome_iff_ne_none, ne_eq, lookup_eq_none, not_not]

theorem lookup_of_mem {b : β} {l : List β} (hl : Distinct key l) (hb : b ∈ l) :
    lookup key (key b) l = some b := by
  induction l with
  | nil => cases hb
  | cons c l ih =>
    obtain ⟨hc, hrest⟩ := List.nodup_cons.mp hl
    rcases List.mem_cons.mp hb with rfl | hb
    · exact lookup_cons_self rfl
    · have hne : key c ≠ key b := fun h => hc (h ▸ List.mem_map_of_mem hb)
      rw [lookup_cons_ne hne, ih hrest hb]

theorem map_unlink (k : κ) (l : List β) : (unlink key k l).map key = (l.map key).erase k := by
  induction l with
  | nil => rfl
  | cons b l ih =>
    by_cases h : key b = k
    · rw [unlink_cons_self h, List.map_cons, h, List.erase_cons_head]
    · rw [unlink_cons_ne h, List.map_cons, ih, List.map_cons,
        List.erase_cons_tail (by simpa using h)]

/-- A node whose key does not occur before it is the one that is taken out. -/
theorem unlink_append {k : κ} {front back : List β} {b : β} (hb : key b = k)
    (hfront : k ∉ front.map key) :
    unlink key k (front ++ b :: back) = front ++ back := by
  induction front with
  | nil => rw [List.nil_append, unlink_cons_self hb, List.nil_append]
  | cons c front ih =>
    rw [List.map_cons, List.mem_cons, not_or] at hfront
    rw [List.cons_append, unlink_cons_ne (fun hc => hfront.1 hc.symm), ih hfront.2,
      List.cons_append]

theorem Distinct.unlink {l : List β} (hl : Distinct key l) (k : κ) :
    Distinct key (unlink key k l) := by
  rw [Distinct, map_unlink]
  exact hl.erase k

theorem mem_map_unlink {k j : κ} {l : List β} (hl : Distinct key l) :
    j ∈ (unlink key k l).map key ↔ j ≠ k ∧ j ∈ l.map key := by
  rw [map_unlink]
  exact hl.mem_erase_iff

theorem mem_unlink {k : κ} {b : β} {l : List β} (hb : b ∈ l) (hk : key b ≠ k) :
    b ∈ KeyedList.unlink key k l := by
  induction l with
  | nil => cases hb
  | cons c l ih =>
    by_cases hc : key c = k
    · rw [unlink_cons_self hc]
      rcases List.mem_cons.mp hb with rfl | hb
      · exact absurd hc hk
      · exact hb
    · rw [unlink_cons_ne hc]
      rcases List.mem_cons.mp hb with rfl | hb
      · exact List.mem_cons_self
      · exact List.mem_cons_of_mem c (ih hb)

theorem lookup_unlink_self {k : κ} {l : List β} (hl : Distinct key l) :
    lookup key k (KeyedList.unlink key k l) = none := by
  rw [lookup_eq_none, mem_map_unlink hl]
  exact fun h => h.1 rfl

theorem lookup_unlink_ne {k k' : κ} {l : List β} (h : k ≠ k') :
    lookup key k (unlink key k' l) = lookup key k l := by
  induction l with
  | nil => rfl
  | cons b l ih =>
    by_cases hb : key b = k'
    · rw [unlink_cons_self hb, lookup_cons_ne (fun e => h (e.symm.trans hb))]
    · rw [unlink_cons_ne hb, lookup, lookup, ih]

section Update

variable (f : β → β)

theorem update_cons_self {k : κ} {b : β} {l : List β} (h : key b = k) :
    update key k f (b :: l) = f b :: l := by
  rw [update, if_pos h]

theorem update_cons_ne {k : κ} {b : β} {l : List β} (h : key b ≠ k) :
    update key k f (b :: l) = b :: update key k f l := by
  rw [update, if_neg h]

theorem map_update (hf : ∀ b, key (f b) = key b) (k : κ) (l : List β) :
    (update key k f l).map key = l.map key := by
  induction l with
  | nil => rfl
  | cons b l ih =>
    by_cases h : key b = k
    · rw [update_cons_self f h, List.map_cons, hf, List.map_cons]
    · rw [update_cons_ne f h, List.map_cons, ih, List.map_cons]

theorem lookup_update_self (hf : ∀ b, key (f b) = key b) (k : κ) (l : List β) :
    lookup key k (update key k f l) = (lookup key k l).map f := by
  induction l with
  | nil => rfl
  | cons b l ih =>
    by_cases h : key b = k
    · rw [update_cons_self f h, lookup_cons_self h, lookup_cons_self ((hf b).trans h),
        Option.map_some]
    · rw [update_cons_ne f h, lookup_cons_ne h, lookup_cons_ne h, ih]

theorem lookup_update_ne (hf : ∀ b, key (f b) = key b) {k k' : κ} (h : k ≠ k') (l : List β) :
    lookup key k (update key k' f l) = lookup key k l := by
  induction l with
  | nil => rfl
  | cons b l ih =>
    by_cases hb : key b = k'
    · have hne : key b ≠ k := fun e => h (e.symm.trans hb)
      rw [update_cons_self f hb, lookup_cons_ne hne, lookup_cons_ne (by rwa [hf b])]
    · rw [update_cons_ne f hb, lookup, lookup, ih]

theorem mem_update {k : κ} {b : β} {l : List β} (hb : b ∈ l) :
    b ∈ update key k f l ∨ f b ∈ update key k f l := by
  induction l with
  | nil => cases hb
  | cons c l ih =>
    by_cases h : key c = k
    · rw [update_cons_self f h]
      rcases List.mem_cons.mp hb with rfl | hb
      · exact Or.inr List.mem_cons_self
      · exact Or.inl (List.mem_cons_of_mem _ hb)
    · rw [update_cons_ne f h]
      rcases List.mem_cons.mp hb with rfl | hb
      · exact Or.inl List.mem_cons_self
      · exact (ih hb).imp (List.mem_cons_of_mem _) (List.mem_cons_of_mem _)

theorem update_append {k : κ} {front : List β} (hfront : k ∉ front.map key) (back : List β) :
    update key k f (front ++ back) = front ++ update key k f back := by
  induction front with
  | nil => rfl
  | cons b front ih =>
    rw [List.map_cons, List.mem_cons, not_or] at hfront
    rw [List.cons_append, update_cons_ne f (Ne.symm hfront.1), ih hfront.2, List.cons_append]

theorem update_absent {k : κ} {l : List β} (h : k ∉ l.map key) : update key k f l = l := by
  have happend := update_append f h []
  rwa [List.append_nil, update, List.append_nil] at happend

variable {f} in
theorem update_comm {g : β → β} (hf : ∀ b, key (f b) = key b) (hg : ∀ b, key (g b) = key b)
    {k k' : κ} (h : k ≠ k') (l : List β) :
    update key k f (update key k' g l) = update key k' g (update key k f l) := by
  induction l with
  | nil => rfl
  | cons b l ih =>
    by_cases hb : key b = k
    · have hne : key b ≠ k' := fun e => h (hb.symm.trans e)
      rw [update_cons_ne g hne, update_cons_self f hb, update_cons_self f hb,
        update_cons_ne g (by rwa [hf b])]
    · by_cases hb' : key b = k'
      · rw [update_cons_self g hb', update_cons_ne f (by rwa [hg b]), update_cons_ne f hb,
          update_cons_self g hb']
      · rw [update_cons_ne g hb', update_cons_ne f hb, update_cons_ne f hb,
          update_cons_ne g hb', ih]

end Update

theorem lookup_filter (p : κ → Bool) (k : κ) (l : List β) :
    lookup key k (l.filter (fun b => p (key b))) = if p k then lookup key k l else none := by
  induction l with
  | nil => simp [lookup]
  | cons b l ih =>
    by_cases hb : key b = k
    · by_cases hp : p k = true
      · simp [hb, hp, lookup]
      · simp [hb, hp, ih]
    · by_cases hp : p (key b) = true
      · simp [hp, lookup_cons_ne hb, ih]
      · simp [hp, lookup_cons_ne hb, ih]

/-! ## The finite map -/

theorem lookup_toMap (k : κ) (l : List β) : (toMap key l).lookup k = lookup key k l := by
  rw [toMap, Finmap.dlookup_list_toFinmap]
  induction l with
  | nil => rfl
  | cons b l ih =>
    by_cases h : key b = k
    · subst h
      rw [List.map_cons, List.dlookup_cons_eq, lookup_cons_self rfl]
    · rw [List.map_cons, List.dlookup_cons_ne _ _ (fun e => h e.symm), ih, lookup_cons_ne h]

theorem toMap_cons (b : β) (l : List β) : toMap key (b :: l) = (toMap key l).insert (key b) b := by
  rw [toMap, List.map_cons, Finmap.toFinmap_cons, toMap]

theorem toMap_unlink {l : List β} (hl : Distinct key l) (k : κ) :
    toMap key (unlink key k l) = (toMap key l).erase k := by
  refine Finmap.ext_lookup (fun j => ?_)
  by_cases h : j = k
  · subst h
    rw [lookup_toMap, lookup_unlink_self hl, Finmap.lookup_erase]
  · rw [lookup_toMap, lookup_unlink_ne h, Finmap.lookup_erase_ne h, lookup_toMap]

theorem card_toMap {l : List β} (hl : Distinct key l) : (toMap key l).keys.card = l.length := by
  have hkeys : (toMap key l).keys = (l.map key).toFinset := by
    ext k
    rw [Finmap.mem_keys, List.mem_toFinset, ← Finmap.lookup_isSome, lookup_toMap, lookup_isSome]
  rw [hkeys, List.toFinset_card_of_nodup hl, List.length_map]

/-! ## Changing the key

The nodes may carry an encoding of the key that the map is about.  Searching for
the encoded key among nodes that all carry an encoding is searching for the key. -/

section Rekey

variable {ι : Type} [DecidableEq ι] {index : β → ι} {encode : ι → κ}

omit [DecidableEq κ] [DecidableEq ι] in
theorem key_eq_encode_iff (hinj : Function.Injective encode) {b : β}
    (hb : key b = encode (index b)) (i : ι) : key b = encode i ↔ index b = i := by
  rw [hb]
  exact hinj.eq_iff

theorem lookup_encode (hinj : Function.Injective encode) {l : List β}
    (hl : ∀ b ∈ l, key b = encode (index b)) (i : ι) :
    lookup key (encode i) l = lookup index i l := by
  induction l with
  | nil => rfl
  | cons b l ih =>
    have hiff := key_eq_encode_iff hinj (hl b List.mem_cons_self) i
    rw [lookup, lookup, ih (fun c hc => hl c (List.mem_cons_of_mem b hc))]
    simp only [hiff]

theorem unlink_encode (hinj : Function.Injective encode) {l : List β}
    (hl : ∀ b ∈ l, key b = encode (index b)) (i : ι) :
    unlink key (encode i) l = unlink index i l := by
  induction l with
  | nil => rfl
  | cons b l ih =>
    have hiff := key_eq_encode_iff hinj (hl b List.mem_cons_self) i
    rw [unlink, unlink, ih (fun c hc => hl c (List.mem_cons_of_mem b hc))]
    simp only [hiff]

omit [DecidableEq κ] [DecidableEq ι] in
theorem distinct_index {l : List β} (hl : ∀ b ∈ l, key b = encode (index b))
    (hd : Distinct key l) : Distinct index l := by
  have hmap : l.map key = (l.map index).map encode := by
    rw [List.map_map]
    exact List.map_congr_left hl
  rw [Distinct, hmap] at hd
  exact List.Nodup.of_map encode hd

end Rekey

end KeyedList
end Lib
end LinuxLab
