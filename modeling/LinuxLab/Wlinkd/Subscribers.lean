import LinuxLab.Wlinkd.Ipc

/-!
# Subscribers and their descriptors

Two properties of whole runs of `ipc.c`.  The descriptors of the push array are
exactly the accepted descriptors that are still open, each of them once, so that
nothing is leaked and nothing is closed that is not open.  And a subscriber is sent
its acknowledgement and then every message that is pushed, up to the first one that
cannot be sent to it.
-/

namespace LinuxLab
namespace Wlinkd
namespace Ipc

open Lib

/-! ## Ownership -/

structure Owned (s : IpcServer) : Prop where
  array : s.pushFds.length = maxPushClients
  count : s.pushCount ≤ maxPushClients
  nonneg : ∀ fd ∈ s.clients, 0 ≤ fd
  distinct : s.clients.Nodup
  isOpen : ∀ fd ∈ s.clients, ∃ n, s.kernel.table fd = some (.conn n)
  owned : ∀ fd n, s.kernel.table fd = some (.conn n) → fd ∈ s.clients
  proper : s.kernel.Proper
  closes : s.kernel.badCloses = []
  unsent : ∀ n, s.kernel.accepted ≤ n → s.kernel.sent n = []
  server : s.serverFd < 0 ∨ s.kernel.table s.serverFd = some .listener

theorem owned_of_noConn {s : IpcServer} (harray : s.pushFds.length = maxPushClients)
    (hcount : s.pushCount = 0) (hnoConn : ∀ fd n, s.kernel.table fd ≠ some (.conn n))
    (hcloses : s.kernel.badCloses = [])
    (hunsent : ∀ n, s.kernel.accepted ≤ n → s.kernel.sent n = [])
    (hserver : s.serverFd < 0 ∨ s.kernel.table s.serverFd = some .listener) : Owned s := by
  have hclients : s.clients = [] := by rw [IpcServer.clients, hcount, List.take_zero]
  refine ⟨harray, by rw [hcount]; exact Nat.zero_le _, ?_, ?_, ?_, ?_, ?_, hcloses, hunsent,
    hserver⟩
  · rw [hclients]
    exact fun fd hfd => absurd hfd List.not_mem_nil
  · rw [hclients]
    exact List.nodup_nil
  · rw [hclients]
    exact fun fd hfd => absurd hfd List.not_mem_nil
  · exact fun fd n hfd => absurd hfd (hnoConn fd n)
  · exact ⟨fun fd n hfd => absurd hfd (hnoConn fd n), fun fd _ n hfd => absurd hfd (hnoConn fd n)⟩

theorem owned_started {s : IpcServer} (h : Started s) : Owned s :=
  owned_of_noConn h.array h.noClient h.noConn h.noBadClose h.unsent (Or.inr h.server.2)

section Steps

variable {s s' : IpcServer} (h : Owned s)

include h

theorem Owned.fits : s.pushCount ≤ s.pushFds.length := h.array ▸ h.count

theorem Owned.ne_none {fd : Int} (hfd : fd ∈ s.clients) : s.kernel.table fd ≠ none := by
  obtain ⟨n, hn⟩ := h.isOpen fd hfd
  rw [hn]
  exact nofun

theorem Owned.server_notMem (hserver : s.kernel.table s.serverFd = some .listener) :
    s.serverFd ∉ s.clients := by
  intro hmem
  obtain ⟨n, hn⟩ := h.isOpen s.serverFd hmem
  rw [hserver] at hn
  exact absurd hn nofun

theorem Owned.broadcast_unsent (msg : CString) (ok : Int → Bool) (n : Nat)
    (hn : s.kernel.accepted ≤ n) : (s.kernel.broadcast msg ok s.clients).sent n = [] := by
  rw [Descriptors.broadcast_sent_ne, h.unsent n hn]
  intro fd _ hfd
  exact Nat.not_lt.mpr hn (h.proper.below fd n hfd)

theorem Owned.pushEvent (msg : CString) (ok : Int → Bool) : Owned (pushEvent msg ok s) := by
  obtain ⟨hkernel, hclients, hcount, harray, hserver⟩ := pushEvent_spec h.fits h.nonneg msg ok
  have htable : ∀ fd t, (Ipc.pushEvent msg ok s).kernel.table fd = some t →
      s.kernel.table fd = some t ∧ ¬(fd ∈ s.clients ∧ ok fd = false) := by
    intro fd t ht
    rw [hkernel, Descriptors.broadcast_table] at ht
    split at ht
    · exact absurd ht nofun
    · rename_i hkept
      exact ⟨ht, hkept⟩
  refine ⟨harray.trans h.array, ?_, ?_, ?_, ?_, ?_, ?_, ?_, ?_, ?_⟩
  · rw [hcount]
    have hle := List.length_filter_le ok s.clients
    have hlen : s.clients.length ≤ s.pushCount := by
      rw [IpcServer.clients, List.length_take]
      exact Nat.min_le_left _ _
    exact Nat.le_trans hle (Nat.le_trans hlen h.count)
  · rw [hclients]
    exact fun fd hfd => h.nonneg fd (List.mem_of_mem_filter hfd)
  · rw [hclients]
    exact h.distinct.filter ok
  · rw [hclients]
    intro fd hfd
    obtain ⟨hmem, hok⟩ := List.mem_filter.mp hfd
    rw [hkernel, Descriptors.broadcast_table, if_neg (by simp [hok])]
    exact h.isOpen fd hmem
  · intro fd n hfd
    obtain ⟨hold, hkept⟩ := htable fd _ hfd
    rw [hclients, List.mem_filter]
    have hmem := h.owned fd n hold
    exact ⟨hmem, by simpa [hmem] using hkept⟩
  · refine h.proper.of_le (fun fd t ht => (htable fd t ht).1) ?_
    rw [hkernel, Descriptors.broadcast_accepted]
  · rw [hkernel, Descriptors.broadcast_badCloses h.distinct (fun fd hfd => h.ne_none hfd), h.closes]
  · rw [hkernel, Descriptors.broadcast_accepted]
    exact h.broadcast_unsent msg ok
  · rw [hserver]
    refine h.server.imp_right (fun hlisten => ?_)
    rw [hkernel, Descriptors.broadcast_table, if_neg (fun hmem => h.server_notMem hlisten hmem.1),
      hlisten]

/-- After `ipc_close` no accepted descriptor is open. -/
theorem Owned.close_noConn (fd : Int) (n : Nat) : (close s).kernel.table fd ≠ some (.conn n) := by
  have hbroadcast : (s.kernel.broadcast [] (fun _ => false) s.clients).table fd
      ≠ some (.conn n) := by
    rw [Descriptors.broadcast_table]
    split
    · exact nofun
    · rename_i hnot
      exact fun hfd => hnot ⟨h.owned fd n hfd, rfl⟩
  rw [close_kernel h.fits h.nonneg]
  split
  · by_cases hfd : fd = s.serverFd
    · rw [hfd, Descriptors.table_close_self]
      exact nofun
    · rwa [Descriptors.table_close_ne hfd]
  · exact hbroadcast

theorem Owned.close_badCloses : (close s).kernel.badCloses = [] := by
  have hbroadcast : (s.kernel.broadcast [] (fun _ => false) s.clients).badCloses = [] := by
    rw [Descriptors.broadcast_badCloses h.distinct (fun fd hfd => h.ne_none hfd), h.closes]
  rw [close_kernel h.fits h.nonneg]
  split
  · rename_i hnonneg
    have hlisten := h.server.resolve_left (Int.not_lt.mpr hnonneg)
    rw [Descriptors.badCloses_close, hbroadcast]
    rw [Descriptors.broadcast_table, if_neg (fun hmem => h.server_notMem hlisten hmem.1), hlisten]
    exact nofun
  · exact hbroadcast

theorem Owned.close_unsent (n : Nat) (hn : (close s).kernel.accepted ≤ n) :
    (close s).kernel.sent n = [] := by
  rw [close_kernel h.fits h.nonneg] at hn ⊢
  split at hn
  · rename_i hserver
    rw [Descriptors.accepted_close, Descriptors.broadcast_accepted] at hn
    rw [if_pos hserver, Descriptors.sent_close]
    exact h.broadcast_unsent _ _ n hn
  · rename_i hserver
    rw [Descriptors.broadcast_accepted] at hn
    rw [if_neg hserver]
    exact h.broadcast_unsent _ _ n hn

theorem Owned.close : Owned (close s) :=
  owned_of_noConn h.array rfl h.close_noConn h.close_badCloses h.close_unsent
    (Or.inl (by decide : (-1 : Int) < 0))

theorem Owned.registered {fd : Int} (ok : Bool) (hfd : 0 ≤ fd) (hfree : s.kernel.table fd = none)
    (hroom : s.pushCount < maxPushClients) :
    Owned { s with
      pushFds := s.pushFds.set s.pushCount fd,
      pushCount := s.pushCount + 1,
      kernel := (s.kernel.accept fd).send fd okReply ok } := by
  have hclients : (s.pushFds.set s.pushCount fd).take (s.pushCount + 1) = s.clients ++ [fd] :=
    take_set_self (by rw [h.array]; exact hroom) fd
  have hnew : fd ∉ s.clients := fun hmem => h.ne_none hmem hfree
  refine ⟨by rw [List.length_set]; exact h.array, hroom, ?_, ?_, ?_, ?_, ?_, ?_, ?_, ?_⟩
  · intro fd' hfd'
    rw [IpcServer.clients, hclients, List.mem_append, List.mem_singleton] at hfd'
    exact hfd'.elim (h.nonneg fd') (fun e => e ▸ hfd)
  · rw [IpcServer.clients, hclients, List.nodup_append']
    exact ⟨h.distinct, List.nodup_singleton fd, by simpa using hnew⟩
  · intro fd' hfd'
    rw [IpcServer.clients, hclients, List.mem_append, List.mem_singleton] at hfd'
    rw [Descriptors.table_send]
    rcases hfd' with hold | rfl
    · have hne : fd' ≠ fd := fun e => hnew (e ▸ hold)
      rw [Descriptors.table_accept_ne hne]
      exact h.isOpen fd' hold
    · exact ⟨_, Descriptors.table_accept_self fd' s.kernel⟩
  · intro fd' n hfd'
    rw [Descriptors.table_send] at hfd'
    rw [IpcServer.clients, hclients, List.mem_append, List.mem_singleton]
    by_cases hself : fd' = fd
    · exact Or.inr hself
    · rw [Descriptors.table_accept_ne hself] at hfd'
      exact Or.inl (h.owned fd' n hfd')
  · refine (h.proper.accept fd).of_le (fun fd' t ht => ?_) ?_
    · rwa [Descriptors.table_send] at ht
    · rw [Descriptors.accepted_send]
  · rw [Descriptors.badCloses_send]
    exact h.closes
  · intro n hn
    rw [Descriptors.accepted_send] at hn
    have hlt : s.kernel.accepted < n := hn
    rw [sent_send_accept okReply ok (Nat.ne_of_gt hlt), h.unsent n (Nat.le_of_lt hlt)]
  · refine h.server.imp_right (fun hlisten => ?_)
    have hne : s.serverFd ≠ fd := by
      intro e
      rw [e, hfree] at hlisten
      exact absurd hlisten nofun
    rw [Descriptors.table_send, Descriptors.table_accept_ne hne, hlisten]

theorem Owned.served (hserved : Served s s') : Owned s' := by
  cases hserved with
  | refused => exact h
  | passed htable haccepted hcloses hsent =>
    refine ⟨h.array, h.count, h.nonneg, h.distinct, ?_, ?_, ?_, hcloses.trans h.closes, ?_, ?_⟩
    · rw [htable]
      exact h.isOpen
    · rw [htable]
      exact h.owned
    · refine h.proper.of_le (fun fd t ht => by rwa [htable] at ht) ?_
      rw [haccepted]
      exact Nat.le_succ _
    · intro n hn
      rw [haccepted] at hn
      rw [hsent n (Nat.ne_of_gt hn), h.unsent n (Nat.le_of_lt hn)]
    · rw [htable]
      exact h.server
  | registered ok hfd hfree hroom => exact h.registered ok hfd hfree hroom

end Steps

theorem owned_ipcStep (s : IpcServer) (x : IpcStep) (s' : IpcServer) (h : Owned s)
    (hstep : ipcStep s x = some s') : Owned s' := by
  cases x with
  | handler d x => exact h.served (handler_served hstep)
  | push msg ok =>
    rw [ipcStep, Option.some.injEq] at hstep
    exact hstep ▸ h.pushEvent msg ok
  | close =>
    rw [ipcStep, Option.some.injEq] at hstep
    exact hstep ▸ h.close

/-- After every run from a fresh server there are at most eight clients, their
descriptors are different and open, and they are all the accepted descriptors that are
open; no descriptor has been closed that was not open, and `ipc_close` would leave no
accepted descriptor open. -/
theorem descriptors_owned {s s' : IpcServer} {xs : List IpcStep} (hinit : Started s)
    (hrun : exec ipcStep s xs = some s') :
    s'.pushCount ≤ 8 ∧ s'.clients.length = s'.pushCount ∧ s'.clients.Nodup ∧
      (∀ fd, fd ∈ s'.clients ↔ ∃ n, s'.kernel.table fd = some (.conn n)) ∧
      s'.kernel.badCloses = [] ∧
      ∀ fd n, (close s').kernel.table fd ≠ some (.conn n) := by
  have howned : Owned s' := exec_invariant owned_ipcStep (owned_started hinit) hrun
  refine ⟨howned.count, ?_, howned.distinct, fun fd => ?_, howned.closes, howned.close_noConn⟩
  · rw [IpcServer.clients, List.length_take]
    exact Nat.min_eq_left howned.fits
  · constructor
    · exact howned.isOpen fd
    · rintro ⟨n, hn⟩
      exact howned.owned fd n hn

/-- A listening socket on descriptor 3 and nothing else. -/
def freshServer : IpcServer :=
  { serverFd := 3, pushFds := List.replicate maxPushClients 0, pushCount := 0,
    kernel :=
      { table := fun fd => if fd = 3 then some .listener else none, accepted := 0,
        sent := fun _ => [], badCloses := [] } }

theorem started_freshServer : Started freshServer where
  server := ⟨by decide, rfl⟩
  noClient := rfl
  array := rfl
  noConn fd n := by
    show (if fd = 3 then some Target.listener else none) ≠ some (.conn n)
    split <;> exact nofun
  noBadClose := rfl
  unsent _ _ := rfl

/-- A request on a descriptor, with a send that succeeds. -/
def requestOn (fd : Int) (req : String) : IpcStep :=
  .handler (boot "wlan0".toList 3 28)
    { accept := some fd, recv := some req.toList, send := true }

/-- Two subscribers, of which the first one is lost; its descriptor is used again. -/
theorem descriptors_owned_reused :
    ∃ s', exec ipcStep freshServer
        [requestOn 5 "SUBSCRIBE", requestOn 6 "SUBSCRIBE", .push "traffic\n".toList (· ≠ 5),
          requestOn 5 "SUBSCRIBE"] = some s' ∧
      s'.clients = [6, 5] ∧ s'.kernel.badCloses = [] := by
  obtain ⟨s', hrun, hclients⟩ : ∃ s', exec ipcStep freshServer
      [requestOn 5 "SUBSCRIBE", requestOn 6 "SUBSCRIBE", .push "traffic\n".toList (· ≠ 5),
        requestOn 5 "SUBSCRIBE"] = some s' ∧ s'.clients = [6, 5] := ⟨_, rfl, rfl⟩
  exact ⟨s', hrun, hclients, (descriptors_owned started_freshServer hrun).2.2.2.2.1⟩

/-! ## What a subscriber is sent -/

/-- What a step is for the descriptor `fd`: a push whose send to it succeeds or not. -/
def outcome (fd : Int) : IpcStep → Option (CString × Bool)
  | .push msg ok => some (msg, ok fd)
  | _ => none

def outcomes (fd : Int) (xs : List IpcStep) : List (CString × Bool) := xs.filterMap (outcome fd)

/-- The messages pushed up to the first one whose send to `fd` fails. -/
def delivered (fd : Int) (xs : List IpcStep) : List CString :=
  ((outcomes fd xs).takeWhile Prod.snd).map Prod.fst

/-- Connection `n` is among the clients, on the descriptor `fd`. -/
structure Registered (n : Nat) (fd : Int) (s : IpcServer) : Prop where
  client : fd ∈ s.clients
  leads : s.kernel.table fd = some (.conn n)

/-- Connection `n` has been accepted and closed. -/
structure Gone (n : Nat) (s : IpcServer) : Prop where
  accepted : n < s.kernel.accepted
  closed : ∀ fd, s.kernel.table fd ≠ some (.conn n)

theorem delivered_push_ok {fd : Int} {msg : CString} {ok : Int → Bool} (h : ok fd = true)
    (xs : List IpcStep) : delivered fd (.push msg ok :: xs) = msg :: delivered fd xs := by
  simp [delivered, outcomes, outcome, h]

theorem delivered_push_failed {fd : Int} {msg : CString} {ok : Int → Bool} (h : ¬ok fd = true)
    (xs : List IpcStep) : delivered fd (.push msg ok :: xs) = [] := by
  simp [delivered, outcomes, outcome, h]

theorem delivered_handler (fd : Int) (d : Daemon) (x : IpcInput) (xs : List IpcStep) :
    delivered fd (.handler d x :: xs) = delivered fd xs := rfl

section Subscriber

variable {s s' : IpcServer} {n : Nat} {fd : Int} (h : Owned s)

include h

theorem Registered.below (hreg : Registered n fd s) : n < s.kernel.accepted :=
  h.proper.below fd n hreg.leads

theorem Registered.push_ok (hreg : Registered n fd s) (msg : CString) {ok : Int → Bool}
    (hok : ok fd = true) :
    Registered n fd (pushEvent msg ok s) ∧
      (pushEvent msg ok s).kernel.sent n = s.kernel.sent n ++ [msg] := by
  obtain ⟨hkernel, hclients, -⟩ := pushEvent_spec h.fits h.nonneg msg ok
  refine ⟨⟨?_, ?_⟩, ?_⟩
  · rw [hclients]
    exact List.mem_filter.mpr ⟨hreg.client, hok⟩
  · rw [hkernel, Descriptors.broadcast_table, if_neg (by simp [hok]), hreg.leads]
  · rw [hkernel, Descriptors.broadcast_sent h.proper h.distinct hreg.client hreg.leads, if_pos hok]

theorem Registered.push_failed (hreg : Registered n fd s) (msg : CString) {ok : Int → Bool}
    (hok : ¬ok fd = true) :
    Gone n (pushEvent msg ok s) ∧ (pushEvent msg ok s).kernel.sent n = s.kernel.sent n := by
  obtain ⟨hkernel, -⟩ := pushEvent_spec h.fits h.nonneg msg ok
  refine ⟨⟨?_, fun fd' hfd' => ?_⟩, ?_⟩
  · rw [hkernel, Descriptors.broadcast_accepted]
    exact hreg.below h
  · rw [hkernel, Descriptors.broadcast_table] at hfd'
    split at hfd'
    · exact absurd hfd' nofun
    · rename_i hkept
      -- Its only descriptor is the one that has been closed.
      obtain rfl := h.proper.single fd' fd n hfd' hreg.leads
      exact hkept ⟨hreg.client, Bool.not_eq_true _ ▸ hok⟩
  · rw [hkernel, Descriptors.broadcast_sent h.proper h.distinct hreg.client hreg.leads, if_neg hok]

theorem Gone.push (hgone : Gone n s) (msg : CString) (ok : Int → Bool) :
    Gone n (pushEvent msg ok s) ∧ (pushEvent msg ok s).kernel.sent n = s.kernel.sent n := by
  obtain ⟨hkernel, -⟩ := pushEvent_spec h.fits h.nonneg msg ok
  refine ⟨⟨?_, fun fd' => ?_⟩, ?_⟩
  · rw [hkernel, Descriptors.broadcast_accepted]
    exact hgone.accepted
  · rw [hkernel, Descriptors.broadcast_table]
    split
    · exact nofun
    · exact hgone.closed fd'
  · rw [hkernel, Descriptors.broadcast_sent_ne (fun fd' _ => hgone.closed fd')]

/-- Later requests leave a subscriber and what it has been sent alone. -/
theorem Registered.served (hreg : Registered n fd s) (hserved : Served s s') :
    Registered n fd s' ∧ s'.kernel.sent n = s.kernel.sent n := by
  have hn : n ≠ s.kernel.accepted := Nat.ne_of_lt (hreg.below h)
  cases hserved with
  | refused => exact ⟨hreg, rfl⟩
  | passed htable haccepted hcloses hsent =>
    exact ⟨⟨hreg.client, by rw [htable, hreg.leads]⟩, hsent n hn⟩
  | @registered fd' ok hfd hfree hroom =>
    have hne : fd ≠ fd' := by
      intro e
      have hleads := hreg.leads
      rw [e, hfree] at hleads
      exact absurd hleads nofun
    refine ⟨⟨?_, ?_⟩, sent_send_accept okReply ok hn⟩
    · rw [IpcServer.clients, take_set_self (by rw [h.array]; exact hroom)]
      exact List.mem_append_left _ hreg.client
    · rw [Descriptors.table_send, Descriptors.table_accept_ne hne, hreg.leads]

omit h in
theorem Gone.served (hgone : Gone n s) (hserved : Served s s') :
    Gone n s' ∧ s'.kernel.sent n = s.kernel.sent n := by
  have hn : n ≠ s.kernel.accepted := Nat.ne_of_lt hgone.accepted
  cases hserved with
  | refused => exact ⟨hgone, rfl⟩
  | passed htable haccepted hcloses hsent =>
    refine ⟨⟨?_, ?_⟩, hsent n hn⟩
    · rw [haccepted]
      exact Nat.lt_succ_of_lt hgone.accepted
    · rw [htable]
      exact hgone.closed
  | @registered fd' ok hfd hfree hroom =>
    refine ⟨⟨?_, fun fd => ?_⟩, sent_send_accept okReply ok hn⟩
    · rw [Descriptors.accepted_send]
      exact Nat.lt_succ_of_lt hgone.accepted
    · rw [Descriptors.table_send]
      by_cases hself : fd = fd'
      · rw [hself, Descriptors.table_accept_self]
        simpa using Ne.symm hn
      · rw [Descriptors.table_accept_ne hself]
        exact hgone.closed fd

end Subscriber

theorem sent_of_gone {n : Nat} {s s' : IpcServer} {xs : List IpcStep} (h : Owned s)
    (hgone : Gone n s) (hxs : .close ∉ xs) (hrun : exec ipcStep s xs = some s') :
    s'.kernel.sent n = s.kernel.sent n := by
  induction xs generalizing s with
  | nil =>
    rw [exec_nil, Option.some.injEq] at hrun
    rw [hrun]
  | cons x xs ih =>
    obtain ⟨t, ht, hrest⟩ := exists_step_of_exec hrun
    have hxs' : .close ∉ xs := fun hmem => hxs (List.mem_cons_of_mem x hmem)
    have ht' : Gone n t ∧ t.kernel.sent n = s.kernel.sent n := by
      cases x with
      | handler d x => exact hgone.served (handler_served ht)
      | push msg ok =>
        rw [ipcStep, Option.some.injEq] at ht
        exact ht ▸ hgone.push h msg ok
      | close => exact absurd List.mem_cons_self hxs
    rw [ih (owned_ipcStep s x t h ht) ht'.1 hxs' hrest, ht'.2]

/-- From its registration on, a subscriber is sent the pushed messages up to the first
failure.  At that point it turns from registered to gone. -/
theorem sent_of_registered {n : Nat} {fd : Int} {s s' : IpcServer} {xs : List IpcStep}
    (h : Owned s) (hreg : Registered n fd s) (hxs : .close ∉ xs)
    (hrun : exec ipcStep s xs = some s') :
    s'.kernel.sent n = s.kernel.sent n ++ delivered fd xs := by
  induction xs generalizing s with
  | nil =>
    rw [exec_nil, Option.some.injEq] at hrun
    rw [hrun]
    exact (List.append_nil _).symm
  | cons x xs ih =>
    obtain ⟨t, ht, hrest⟩ := exists_step_of_exec hrun
    have hxs' : .close ∉ xs := fun hmem => hxs (List.mem_cons_of_mem x hmem)
    have howned : Owned t := owned_ipcStep s x t h ht
    cases x with
    | handler d x =>
      obtain ⟨hreg', hsent⟩ := hreg.served h (handler_served ht)
      rw [ih howned hreg' hxs' hrest, hsent, delivered_handler]
    | push msg ok =>
      rw [ipcStep, Option.some.injEq] at ht
      by_cases hok : ok fd = true
      · obtain ⟨hreg', hsent⟩ := hreg.push_ok h msg hok
        rw [ih howned (ht ▸ hreg') hxs' hrest, ← ht, hsent, delivered_push_ok hok,
          List.append_assoc, List.singleton_append]
      · obtain ⟨hgone, hsent⟩ := hreg.push_failed h msg hok
        rw [sent_of_gone howned (ht ▸ hgone) hxs' hrest, ← ht, hsent, delivered_push_failed hok,
          List.append_nil]
    | close => exact absurd List.mem_cons_self hxs

/-- The step that accepts a subscriber and acknowledges it. -/
structure Subscribes (s : IpcServer) (fd : Int) (s' : IpcServer) : Prop where
  step : ∃ d bytes, isSubscribe (request bytes) = true ∧
    ipcStep s (.handler d { accept := some fd, recv := some bytes, send := true }) = some s'
  room : s.pushCount < maxPushClients

theorem Subscribes.registered {s s' : IpcServer} {fd : Int} (hsub : Subscribes s fd s')
    (h : Owned s) :
    Registered s.kernel.accepted fd s' ∧ s'.kernel.sent s.kernel.accepted = [okReply] := by
  obtain ⟨d, bytes, hreq, hstep⟩ := hsub.step
  simp only [ipcStep, handler, Option.ite_none_left_eq_some, hreq, if_true, if_pos hsub.room,
    Option.some.injEq] at hstep
  obtain ⟨-, rfl⟩ := hstep
  have hleads := Descriptors.table_accept_self fd s.kernel
  refine ⟨⟨?_, ?_⟩, ?_⟩
  · rw [IpcServer.clients, take_set_self (by rw [h.array]; exact hsub.room)]
    exact List.mem_append_right _ (List.mem_singleton_self fd)
  · rw [Descriptors.table_send, hleads]
  · rw [Descriptors.sent_send_self hleads]
    show s.kernel.sent s.kernel.accepted ++ [okReply] = [okReply]
    rw [h.unsent _ (Nat.le_refl _), List.nil_append]

/-- In every run of requests and pushes, a subscriber whose acknowledgement was sent has
been sent the acknowledgement and then every message pushed since, up to the first one
whose send to it failed, and nothing else.  A run that has the same pushes with the
same outcomes for this subscriber sends it the same, whatever happens to the others. -/
theorem subscriber_gets_its_events {s₀ s₁ s₂ s₃ : IpcServer} {front back : List IpcStep}
    {fd : Int} (hinit : Started s₀) (hfront : exec ipcStep s₀ front = some s₁)
    (hsub : Subscribes s₁ fd s₂) (hback : exec ipcStep s₂ back = some s₃)
    (hopen : .close ∉ back) :
    s₃.kernel.sent s₁.kernel.accepted = okReply :: delivered fd back ∧
      ∀ back' s₃', exec ipcStep s₂ back' = some s₃' → .close ∉ back' →
        outcomes fd back' = outcomes fd back →
        s₃'.kernel.sent s₁.kernel.accepted = s₃.kernel.sent s₁.kernel.accepted := by
  have howned₁ : Owned s₁ := exec_invariant owned_ipcStep (owned_started hinit) hfront
  obtain ⟨hreg, hsent⟩ := hsub.registered howned₁
  obtain ⟨d, bytes, -, hstep⟩ := hsub.step
  have howned₂ : Owned s₂ := owned_ipcStep _ _ _ howned₁ hstep
  have hrun : ∀ xs t, exec ipcStep s₂ xs = some t → .close ∉ xs →
      t.kernel.sent s₁.kernel.accepted = okReply :: delivered fd xs := by
    intro xs t ht hxs
    rw [sent_of_registered howned₂ hreg hxs ht, hsent, List.singleton_append]
  refine ⟨hrun back s₃ hback hopen, fun back' s₃' hback' hopen' hsame => ?_⟩
  rw [hrun back' s₃' hback' hopen', hrun back s₃ hback hopen, delivered, delivered, hsame]

/-- A subscriber that is reached once and then lost, while another one stays. -/
theorem subscriber_gets_its_events_lost :
    ∃ s₂ s₃, Subscribes freshServer 5 s₂ ∧
      exec ipcStep s₂ [.push "sta_join\n".toList (fun _ => true), requestOn 6 "SUBSCRIBE",
        .push "traffic\n".toList (· ≠ 5), .push "sta_leave\n".toList (fun _ => true)] = some s₃ ∧
      s₃.kernel.sent 0 = [okReply, "sta_join\n".toList] := by
  obtain ⟨s₂, s₃, hstep, hback⟩ : ∃ s₂ s₃,
      ipcStep freshServer (requestOn 5 "SUBSCRIBE") = some s₂ ∧
      exec ipcStep s₂ [.push "sta_join\n".toList (fun _ => true), requestOn 6 "SUBSCRIBE",
        .push "traffic\n".toList (· ≠ 5), .push "sta_leave\n".toList (fun _ => true)] = some s₃ :=
    ⟨_, _, rfl, rfl⟩
  have hsub : Subscribes freshServer 5 s₂ := ⟨⟨_, _, rfl, hstep⟩, by decide⟩
  have hsent := subscriber_gets_its_events started_freshServer (exec_nil freshServer) hsub hback
    (by simp [requestOn])
  exact ⟨s₂, s₃, hsub, hback, hsent.1⟩

end Ipc
end Wlinkd
end LinuxLab
