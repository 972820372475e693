import LinuxLab.Lib.CString
import LinuxLab.Lib.Exec
import Mathlib.Logic.Function.Basic

/-!
# A process's descriptors

The table of open descriptors of one process, as far as it says which of them lead to
connections that the process has accepted.  The kernel hands out the numbers again
once they are closed, so a connection is known by its place in the order of the
accepts and not by its descriptor.  What has been sent on each connection is recorded,
and so is every `close` of a descriptor that is not open.

`broadcast` sends a message to the descriptors of a list and closes those whose send
fails.  For a list of different open descriptors it reaches each connection once.
-/

namespace LinuxLab
namespace Lib

/-- What an open descriptor leads to. -/
inductive Target where
  | listener
  | conn (n : Nat)
  | other
deriving DecidableEq, Repr

structure Descriptors where
  table : Int → Option Target
  -- How many connections have been accepted; the next one gets this number.
  accepted : Nat
  -- The messages sent on each connection, oldest first.
  sent : Nat → List CString
  badCloses : List Int

namespace Descriptors

/-- `accept` answers with the descriptor `fd`. -/
def accept (fd : Int) (k : Descriptors) : Descriptors :=
  { k with
    table := Function.update k.table fd (some (.conn k.accepted)),
    accepted := k.accepted + 1 }

/-- `send`.  A send that succeeds is whole, and one that fails sends nothing. -/
def send (fd : Int) (msg : CString) (ok : Bool) (k : Descriptors) : Descriptors :=
  match k.table fd, ok with
  | some (.conn n), true => { k with sent := Function.update k.sent n (k.sent n ++ [msg]) }
  | _, _ => k

def close (fd : Int) (k : Descriptors) : Descriptors :=
  if k.table fd = none then { k with badCloses := k.badCloses ++ [fd] }
  else { k with table := Function.update k.table fd none }

/-- Send to one descriptor, and close it if that fails. -/
def sendOrClose (msg : CString) (ok : Int → Bool) (k : Descriptors) (fd : Int) : Descriptors :=
  if ok fd then k.send fd msg true else k.close fd

def broadcast (msg : CString) (ok : Int → Bool) (fds : List Int) (k : Descriptors) :
    Descriptors :=
  fds.foldl (sendOrClose msg ok) k

/-- Connections have numbers below `accepted`, and no two descriptors share one. -/
structure Proper (k : Descriptors) : Prop where
  below : ∀ fd n, k.table fd = some (.conn n) → n < k.accepted
  single : ∀ fd fd' n, k.table fd = some (.conn n) → k.table fd' = some (.conn n) → fd = fd'

variable {k : Descriptors} {fd : Int} {msg : CString} {ok : Bool}

theorem Proper.of_le {k' : Descriptors} (hk : k.Proper)
    (htable : ∀ fd t, k'.table fd = some t → k.table fd = some t)
    (haccepted : k.accepted ≤ k'.accepted) : k'.Proper where
  below fd n h := Nat.lt_of_lt_of_le (hk.below fd n (htable fd _ h)) haccepted
  single fd fd' n h h' := hk.single fd fd' n (htable fd _ h) (htable fd' _ h')

/-! ## Single calls -/

theorem table_accept_self (fd : Int) (k : Descriptors) :
    (k.accept fd).table fd = some (.conn k.accepted) :=
  Function.update_self fd _ k.table

theorem table_accept_ne {fd' : Int} (h : fd' ≠ fd) (k : Descriptors) :
    (k.accept fd).table fd' = k.table fd' :=
  Function.update_of_ne h _ k.table

@[simp] theorem table_send : (k.send fd msg ok).table = k.table := by
  unfold send
  split <;> rfl

@[simp] theorem accepted_send : (k.send fd msg ok).accepted = k.accepted := by
  unfold send
  split <;> rfl

@[simp] theorem badCloses_send : (k.send fd msg ok).badCloses = k.badCloses := by
  unfold send
  split <;> rfl

theorem send_false : k.send fd msg false = k := by
  unfold send
  split
  · contradiction
  · rfl

theorem sent_send_self {n : Nat} (h : k.table fd = some (.conn n)) :
    (k.send fd msg true).sent n = k.sent n ++ [msg] := by
  simp only [send, h]
  exact Function.update_self n _ k.sent

theorem sent_send_ne {n : Nat} (h : k.table fd ≠ some (.conn n)) :
    (k.send fd msg ok).sent n = k.sent n := by
  unfold send
  split
  · rename_i m htable
    exact Function.update_of_ne (fun e => h (by rw [htable, e])) _ k.sent
  · rfl

@[simp] theorem sent_close : (k.close fd).sent = k.sent := by
  unfold close
  split <;> rfl

@[simp] theorem accepted_close : (k.close fd).accepted = k.accepted := by
  unfold close
  split <;> rfl

theorem table_close : (k.close fd).table = Function.update k.table fd none := by
  unfold close
  split
  · rename_i hnone
    rw [← hnone, Function.update_eq_self]
  · rfl

theorem table_close_self (fd : Int) (k : Descriptors) : (k.close fd).table fd = none := by
  rw [table_close, Function.update_self]

theorem table_close_ne {fd' : Int} (h : fd' ≠ fd) (k : Descriptors) :
    (k.close fd).table fd' = k.table fd' := by
  rw [table_close, Function.update_of_ne h]

theorem badCloses_close (h : k.table fd ≠ none) : (k.close fd).badCloses = k.badCloses := by
  rw [close, if_neg h]

theorem Proper.accept (hk : k.Proper) (fd : Int) : (k.accept fd).Proper := by
  have hcases : ∀ fd' n, (k.accept fd).table fd' = some (.conn n) →
      (fd' = fd ∧ n = k.accepted) ∨ k.table fd' = some (.conn n) := by
    intro fd' n h
    by_cases hfd : fd' = fd
    · rw [hfd, table_accept_self, Option.some.injEq, Target.conn.injEq] at h
      exact Or.inl ⟨hfd, h.symm⟩
    · rw [table_accept_ne hfd] at h
      exact Or.inr h
  refine ⟨fun fd' n h => ?_, fun fd₁ fd₂ n h₁ h₂ => ?_⟩
  · show n < k.accepted + 1
    rcases hcases fd' n h with ⟨-, rfl⟩ | h
    · exact Nat.lt_succ_self _
    · exact Nat.lt_succ_of_lt (hk.below fd' n h)
  · rcases hcases fd₁ n h₁ with ⟨hfd₁, hn⟩ | hold₁
    · rcases hcases fd₂ n h₂ with ⟨hfd₂, -⟩ | hold₂
      · rw [hfd₁, hfd₂]
      · exact absurd hn (Nat.ne_of_lt (hk.below fd₂ n hold₂))
    · rcases hcases fd₂ n h₂ with ⟨-, hn⟩ | hold₂
      · exact absurd hn (Nat.ne_of_lt (hk.below fd₁ n hold₁))
      · exact hk.single fd₁ fd₂ n hold₁ hold₂

/-! ## Broadcast -/

section Broadcast

variable {ok : Int → Bool} {fds : List Int}

theorem sendOrClose_ok (h : ok fd = true) : sendOrClose msg ok k fd = k.send fd msg true := by
  rw [sendOrClose, if_pos h]

theorem sendOrClose_failed (h : ¬ok fd = true) : sendOrClose msg ok k fd = k.close fd := by
  rw [sendOrClose, if_neg h]

theorem broadcast_cons :
    broadcast msg ok (fd :: fds) k = broadcast msg ok fds (sendOrClose msg ok k fd) := rfl

theorem sendOrClose_table (fd' : Int) :
    (sendOrClose msg ok k fd).table fd' =
      if fd' = fd ∧ ok fd = false then none else k.table fd' := by
  by_cases hok : ok fd = true
  · rw [sendOrClose_ok hok, table_send, if_neg (by simp [hok])]
  · rw [sendOrClose_failed hok]
    rw [Bool.not_eq_true] at hok
    by_cases hfd : fd' = fd
    · rw [if_pos ⟨hfd, hok⟩, hfd, table_close_self]
    · rw [if_neg (fun h => hfd h.1), table_close_ne hfd]

theorem Proper.sendOrClose (hk : k.Proper) : (sendOrClose msg ok k fd).Proper := by
  refine hk.of_le (fun fd' t ht => ?_) ?_
  · rw [sendOrClose_table] at ht
    split at ht
    · exact absurd ht nofun
    · exact ht
  · unfold Descriptors.sendOrClose
    split
    · exact Nat.le_of_eq accepted_send.symm
    · exact Nat.le_of_eq accepted_close.symm

theorem broadcast_table (fd' : Int) :
    (broadcast msg ok fds k).table fd' =
      if fd' ∈ fds ∧ ok fd' = false then none else k.table fd' := by
  induction fds generalizing k with
  | nil => simp [broadcast]
  | cons fd fds ih =>
    rw [broadcast_cons, ih, sendOrClose_table]
    by_cases hok : ok fd' = false
    · by_cases hmem : fd' ∈ fds
      · simp [hok, hmem]
      · by_cases hfd : fd' = fd
        · subst hfd
          simp [hok]
        · simp [hmem, hfd]
    · have hne : ¬(fd' = fd ∧ ok fd = false) := fun h => hok (h.1 ▸ h.2)
      simp [hok, hne]

theorem broadcast_accepted : (broadcast msg ok fds k).accepted = k.accepted := by
  refine foldl_unchanged Descriptors.accepted (fun fd _ k => ?_) k
  unfold sendOrClose
  split
  · exact accepted_send
  · exact accepted_close

/-- A descriptor that is open when the broadcast starts, and comes up once, is open
when its turn comes. -/
theorem broadcast_badCloses (hnodup : fds.Nodup) (hopen : ∀ fd ∈ fds, k.table fd ≠ none) :
    (broadcast msg ok fds k).badCloses = k.badCloses := by
  induction fds generalizing k with
  | nil => rfl
  | cons fd fds ih =>
    have hnodup := List.nodup_cons.mp hnodup
    rw [broadcast_cons, ih hnodup.2]
    · unfold sendOrClose
      split
      · exact badCloses_send
      · exact badCloses_close (hopen fd List.mem_cons_self)
    · intro fd' hfd'
      have hne : fd' ≠ fd := fun e => hnodup.1 (e ▸ hfd')
      rw [sendOrClose_table, if_neg (fun h => hne h.1)]
      exact hopen fd' (List.mem_cons_of_mem fd hfd')

theorem sendOrClose_sent_ne {n : Nat} (h : k.table fd ≠ some (.conn n)) :
    (sendOrClose msg ok k fd).sent n = k.sent n := by
  unfold sendOrClose
  split
  · exact sent_send_ne h
  · rw [sent_close]

/-- Connections that no descriptor of the list leads to are sent nothing. -/
theorem broadcast_sent_ne {n : Nat} (h : ∀ fd ∈ fds, k.table fd ≠ some (.conn n)) :
    (broadcast msg ok fds k).sent n = k.sent n := by
  induction fds generalizing k with
  | nil => rfl
  | cons fd fds ih =>
    rw [broadcast_cons, ih, sendOrClose_sent_ne (h fd List.mem_cons_self)]
    intro fd' hfd'
    rw [sendOrClose_table]
    split
    · exact nofun
    · exact h fd' (List.mem_cons_of_mem fd hfd')

/-- The connection behind a descriptor of the list is sent the message once, if the
send to it succeeds. -/
theorem broadcast_sent {n : Nat} (hk : k.Proper) (hnodup : fds.Nodup) (hfd : fd ∈ fds)
    (htable : k.table fd = some (.conn n)) :
    (broadcast msg ok fds k).sent n = if ok fd then k.sent n ++ [msg] else k.sent n := by
  induction fds generalizing k with
  | nil => exact absurd hfd List.not_mem_nil
  | cons fd' fds ih =>
    have hnodup := List.nodup_cons.mp hnodup
    rw [broadcast_cons]
    by_cases hself : fd = fd'
    · subst hself
      -- No later descriptor leads to the same connection.
      rw [broadcast_sent_ne]
      · unfold sendOrClose
        split
        · exact sent_send_self htable
        · rw [sent_close]
      · intro fd' hfd' htable'
        have hne : fd' ≠ fd := fun e => hnodup.1 (e ▸ hfd')
        rw [sendOrClose_table, if_neg (fun h => hne h.1)] at htable'
        exact hne (hk.single fd' fd n htable' htable)
    · have hother : k.table fd' ≠ some (.conn n) := fun h =>
        hself (hk.single fd fd' n htable h)
      rw [ih hk.sendOrClose hnodup.2 ((List.mem_cons.mp hfd).resolve_left hself),
        sendOrClose_sent_ne hother]
      rw [sendOrClose_table, if_neg (fun h => hself h.1), htable]

end Broadcast

end Descriptors
end Lib
end LinuxLab
