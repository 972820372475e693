import LinuxLab.Lib.Descriptors
import LinuxLab.Wlinkd.Status

/-!
# ipc: requests and subscribers

`ipc.c` answers one request for each connection that it accepts and then closes it,
except that a `SUBSCRIBE` request keeps the connection: its descriptor goes to the end
of `g_push_fds`, and `ipc_push_event` sends to every descriptor there, dropping those
that fail by moving the others to the front.

What the system calls answer is an input: the descriptor that `accept` returns, the
bytes that `recv` returns, and whether each `send` succeeds.  The definitions of `Ipc`
are the functions of the file without the prefix `ipc_`.
-/

namespace LinuxLab
namespace Wlinkd

open Lib

/-- The statics of the file and the descriptors of the process. -/
structure IpcServer where
  serverFd : Int
  pushFds : List Int
  pushCount : Nat
  kernel : Descriptors

namespace IpcServer

/-- `g_push_fds[0..g_push_count)`. -/
def clients (s : IpcServer) : List Int := s.pushFds.take s.pushCount

end IpcServer

/-- What the system calls answer during one `ipc_handler`: a failed `accept` or `recv`
is `none`, and so is a `recv` of no bytes. -/
structure IpcInput where
  accept : Option Int
  recv : Option (List Char)
  send : Bool
deriving DecidableEq, Repr

namespace Ipc

def bufferSize : Nat := 4096

def maxPushClients : Nat := 8

def okReply : CString := "OK\n".toList

def fullReply : CString := "ERR full\n".toList

/-- The loop of `ipc_push_event`, with the number of iterations that are left. -/
def pushLoop (msg : CString) (ok : Int → Bool) :
    Nat → Nat → Nat → List Int → Descriptors → Nat × List Int × Descriptors
  | 0, _, j, fds, k => (j, fds, k)
  | n + 1, i, j, fds, k =>
    let fd := fds.getD i (-1)
    if fd < 0 then pushLoop msg ok n (i + 1) j fds k
    else if ok fd then pushLoop msg ok n (i + 1) (j + 1) (fds.set j fd) (k.send fd msg true)
    else pushLoop msg ok n (i + 1) j fds ((k.send fd msg false).close fd)

def pushEvent (msg : CString) (ok : Int → Bool) (s : IpcServer) : IpcServer :=
  let (j, fds, k) := pushLoop msg ok s.pushCount 0 0 s.pushFds s.kernel
  { s with pushFds := fds, pushCount := j, kernel := k }

/-- The loop of `ipc_close`. -/
def closeLoop (fds : List Int) : Nat → Nat → Descriptors → Descriptors
  | 0, _, k => k
  | n + 1, i, k =>
    let fd := fds.getD i (-1)
    closeLoop fds n (i + 1) (if 0 ≤ fd then k.close fd else k)

def close (s : IpcServer) : IpcServer :=
  let k := closeLoop s.pushFds s.pushCount 0 s.kernel
  let k := if 0 ≤ s.serverFd then k.close s.serverFd else k
  { s with pushCount := 0, serverFd := -1, kernel := k }

/-- The answer to a request that is not `SUBSCRIBE`. -/
def reply (d : Daemon) (req : CString) : CString :=
  if req = "WLAN_PING".toList then
    snprintf bufferSize ((if d.isApMode then "PONG AP".toList else "PONG MONITOR".toList) ++ ['\n'])
  else if req = "WLAN_DUMP".toList then
    stringAt (WlanCore.buildStatus d (List.replicate bufferSize nul) bufferSize)
  else snprintf bufferSize ("ERR unknown command: ".toList ++ req ++ ['\n'])

/-- `req`, after `recv` into its 256 bytes. -/
def request (bytes : List Char) : CString := stringAt (bytes.take 255)

def isSubscribe (req : CString) : Bool := strncmpEq req "SUBSCRIBE".toList 9

/-- `ipc_handler`.  The kernel accepts only on a listening socket, and answers with a
descriptor that is not open; other inputs have no step. -/
def handler (d : Daemon) (x : IpcInput) (s : IpcServer) : Option IpcServer :=
  match x.accept with
  | none => some s
  | some fd =>
    if fd < 0 ∨ s.kernel.table fd ≠ none ∨ s.kernel.table s.serverFd ≠ some .listener then none
    else
      let k := s.kernel.accept fd
      match x.recv with
      | none => some { s with kernel := k.close fd }
      | some bytes =>
        let req := request bytes
        if isSubscribe req then
          if s.pushCount < maxPushClients then
            some { s with
              pushFds := s.pushFds.set s.pushCount fd,
              pushCount := s.pushCount + 1,
              kernel := k.send fd okReply x.send }
          else some { s with kernel := (k.send fd fullReply x.send).close fd }
        else some { s with kernel := (k.send fd (reply d req) x.send).close fd }

inductive IpcStep where
  | handler (d : Daemon) (x : IpcInput)
  -- `ipc_push_event`; `ok` says which descriptors the sends of this call succeed on.
  | push (msg : CString) (ok : Int → Bool)
  | close

def ipcStep (s : IpcServer) : IpcStep → Option IpcServer
  | .handler d x => handler d x s
  | .push msg ok => some (pushEvent msg ok s)
  | .close => some (close s)

/-- The state that `ipc_init` leaves: a listening socket, no client, and whatever else
the process has open. -/
structure Started (s : IpcServer) : Prop where
  server : 0 ≤ s.serverFd ∧ s.kernel.table s.serverFd = some .listener
  noClient : s.pushCount = 0
  array : s.pushFds.length = maxPushClients
  noConn : ∀ fd n, s.kernel.table fd ≠ some (.conn n)
  noBadClose : s.kernel.badCloses = []
  unsent : ∀ n, s.kernel.accepted ≤ n → s.kernel.sent n = []

/-! ## The loops -/

theorem getD_drop {fds : List Int} {i : Nat} (h : i < fds.length) :
    fds.drop i = fds.getD i (-1) :: fds.drop (i + 1) := by
  rw [List.drop_eq_getElem_cons h, List.getD_eq_getElem?_getD, List.getElem?_eq_getElem h,
    Option.getD_some]

theorem take_set_self {fds : List Int} {j : Nat} (h : j < fds.length) (fd : Int) :
    (fds.set j fd).take (j + 1) = fds.take j ++ [fd] := by
  rw [List.take_succ_eq_append_getElem (by rwa [List.length_set]),
    List.take_set_of_le (Nat.le_refl j), List.getElem_set_self]

/-- The part of the array that the loop has still to visit is untouched, and what it
keeps is appended to what it has kept. -/
theorem pushLoop_eq (msg : CString) (ok : Int → Bool) (n : Nat) :
    ∀ (i j : Nat) (fds : List Int) (k : Descriptors), j ≤ i → i + n ≤ fds.length →
      (∀ fd ∈ (fds.drop i).take n, 0 ≤ fd) →
      ∃ fds', pushLoop msg ok n i j fds k =
          (j + (((fds.drop i).take n).filter ok).length, fds',
            k.broadcast msg ok ((fds.drop i).take n)) ∧
        fds'.length = fds.length ∧
        fds'.take (j + (((fds.drop i).take n).filter ok).length) =
          fds.take j ++ ((fds.drop i).take n).filter ok := by
  induction n with
  | zero =>
    intro i j fds k _ _ _
    exact ⟨fds, rfl, rfl, by simp⟩
  | succ n ih =>
    intro i j fds k hji hlen hnonneg
    have hi : i < fds.length := by omega
    rw [getD_drop hi, List.take_succ_cons] at hnonneg ⊢
    generalize hfd : fds.getD i (-1) = fd at hnonneg ⊢
    have hfd₀ : ¬fd < 0 := Int.not_lt.mpr (hnonneg fd List.mem_cons_self)
    have hrest : ∀ fd' ∈ (fds.drop (i + 1)).take n, 0 ≤ fd' :=
      fun fd' hfd' => hnonneg fd' (List.mem_cons_of_mem fd hfd')
    rw [pushLoop, hfd, if_neg hfd₀]
    by_cases hok : ok fd = true
    · rw [if_pos hok, List.filter_cons_of_pos hok]
      have hdrop : (fds.set j fd).drop (i + 1) = fds.drop (i + 1) :=
        List.drop_set_of_lt (by omega)
      obtain ⟨fds', heq, hlength, hkept⟩ := ih (i + 1) (j + 1) (fds.set j fd) (k.send fd msg true)
        (by omega) (by rw [List.length_set]; omega) (by rwa [hdrop])
      rw [hdrop] at heq hkept
      rw [take_set_self (by omega), List.append_assoc, List.singleton_append] at hkept
      rw [Nat.add_assoc, Nat.add_comm 1] at heq hkept
      refine ⟨fds', ?_, by rw [hlength, List.length_set], hkept⟩
      rw [heq, Descriptors.broadcast_cons, Descriptors.sendOrClose_ok hok, List.length_cons]
    · rw [if_neg hok, List.filter_cons_of_neg hok]
      obtain ⟨fds', heq, hlength, hkept⟩ := ih (i + 1) j fds ((k.send fd msg false).close fd)
        (by omega) (by omega) hrest
      refine ⟨fds', ?_, hlength, hkept⟩
      rw [heq, Descriptors.broadcast_cons, Descriptors.sendOrClose_failed hok,
        Descriptors.send_false]

theorem closeLoop_eq (fds : List Int) (n : Nat) :
    ∀ (i : Nat) (k : Descriptors), i + n ≤ fds.length →
      (∀ fd ∈ (fds.drop i).take n, 0 ≤ fd) →
      closeLoop fds n i k = k.broadcast [] (fun _ => false) ((fds.drop i).take n) := by
  induction n with
  | zero => intro i k _ _; rfl
  | succ n ih =>
    intro i k hlen hnonneg
    rw [getD_drop (by omega), List.take_succ_cons] at hnonneg ⊢
    rw [closeLoop, if_pos (hnonneg _ List.mem_cons_self), Descriptors.broadcast_cons,
      Descriptors.sendOrClose_failed (by simp)]
    exact ih (i + 1) _ (by omega) (fun fd hfd => hnonneg fd (List.mem_cons_of_mem _ hfd))

section Calls

variable {s : IpcServer} (hcount : s.pushCount ≤ s.pushFds.length)
  (hnonneg : ∀ fd ∈ s.clients, 0 ≤ fd)

include hcount hnonneg

/-- `ipc_push_event` is a broadcast to the clients that keeps those it reached. -/
theorem pushEvent_spec (msg : CString) (ok : Int → Bool) :
    (pushEvent msg ok s).kernel = s.kernel.broadcast msg ok s.clients ∧
      (pushEvent msg ok s).clients = s.clients.filter ok ∧
      (pushEvent msg ok s).pushCount = (s.clients.filter ok).length ∧
      (pushEvent msg ok s).pushFds.length = s.pushFds.length ∧
      (pushEvent msg ok s).serverFd = s.serverFd := by
  obtain ⟨fds', heq, hlength, hkept⟩ := pushLoop_eq msg ok s.pushCount 0 0 s.pushFds s.kernel
    (Nat.le_refl 0) (by omega) hnonneg
  rw [List.drop_zero, Nat.zero_add] at heq hkept
  rw [List.take_zero, List.nil_append] at hkept
  rw [pushEvent, heq]
  exact ⟨rfl, hkept, rfl, hlength, rfl⟩

theorem close_kernel :
    (close s).kernel =
      if 0 ≤ s.serverFd then
        (s.kernel.broadcast [] (fun _ => false) s.clients).close s.serverFd
      else s.kernel.broadcast [] (fun _ => false) s.clients := by
  have hloop : closeLoop s.pushFds s.pushCount 0 s.kernel =
      s.kernel.broadcast [] (fun _ => false) s.clients :=
    closeLoop_eq s.pushFds s.pushCount 0 s.kernel (by omega) hnonneg
  rw [close, hloop]

end Calls

/-! ## The handler -/

/-- What `ipc_handler` can do: nothing, answer a connection and be done with it, or
register it. -/
inductive Served (s : IpcServer) : IpcServer → Prop where
  | refused : Served s s
  | passed {k : Descriptors} (htable : k.table = s.kernel.table)
      (haccepted : k.accepted = s.kernel.accepted + 1)
      (hcloses : k.badCloses = s.kernel.badCloses)
      (hsent : ∀ n, n ≠ s.kernel.accepted → k.sent n = s.kernel.sent n) :
      Served s { s with kernel := k }
  | registered {fd : Int} (ok : Bool) (hfd : 0 ≤ fd) (hfree : s.kernel.table fd = none)
      (hroom : s.pushCount < maxPushClients) :
      Served s { s with
        pushFds := s.pushFds.set s.pushCount fd,
        pushCount := s.pushCount + 1,
        kernel := (s.kernel.accept fd).send fd okReply ok }

/-- A connection that is accepted and closed again leaves the table as it was. -/
theorem served_closed {s : IpcServer} {fd : Int} {k : Descriptors}
    (hfree : s.kernel.table fd = none) (htable : k.table = (s.kernel.accept fd).table)
    (haccepted : k.accepted = s.kernel.accepted + 1)
    (hcloses : k.badCloses = s.kernel.badCloses)
    (hsent : ∀ n, n ≠ s.kernel.accepted → k.sent n = s.kernel.sent n) :
    Served s { s with kernel := k.close fd } := by
  have hopen : k.table fd ≠ none := by
    rw [htable, Descriptors.table_accept_self]
    exact nofun
  refine .passed (funext fun fd' => ?_) ?_ ?_ ?_
  · by_cases hfd : fd' = fd
    · rw [hfd, Descriptors.table_close_self, hfree]
    · rw [Descriptors.table_close_ne hfd, htable, Descriptors.table_accept_ne hfd]
  · rw [Descriptors.accepted_close, haccepted]
  · rw [Descriptors.badCloses_close hopen, hcloses]
  · rw [Descriptors.sent_close]
    exact hsent

theorem sent_send_accept {k : Descriptors} {fd : Int} (msg : CString) (ok : Bool) {n : Nat}
    (hn : n ≠ k.accepted) : ((k.accept fd).send fd msg ok).sent n = k.sent n := by
  rw [Descriptors.sent_send_ne]
  · rfl
  · rw [Descriptors.table_accept_self]
    simpa using Ne.symm hn

theorem served_answered {s : IpcServer} {fd : Int} (msg : CString) (ok : Bool)
    (hfree : s.kernel.table fd = none) :
    Served s { s with kernel := ((s.kernel.accept fd).send fd msg ok).close fd } :=
  served_closed hfree Descriptors.table_send Descriptors.accepted_send Descriptors.badCloses_send
    (fun _ hn => sent_send_accept msg ok hn)

theorem handler_served {d : Daemon} {x : IpcInput} {s s' : IpcServer}
    (h : handler d x s = some s') : Served s s' := by
  rw [handler] at h
  cases haccept : x.accept with
  | none =>
    simp only [haccept, Option.some.injEq] at h
    exact h ▸ .refused
  | some fd =>
    simp only [haccept, Option.ite_none_left_eq_some, not_or, not_not] at h
    obtain ⟨⟨hfd, hfree, -⟩, h⟩ := h
    cases hrecv : x.recv with
    | none =>
      simp only [hrecv, Option.some.injEq] at h
      exact h ▸ served_closed hfree rfl rfl rfl (fun _ _ => rfl)
    | some bytes =>
      simp only [hrecv] at h
      by_cases hsub : isSubscribe (request bytes) = true
      · rw [if_pos hsub] at h
        by_cases hroom : s.pushCount < maxPushClients
        · rw [if_pos hroom, Option.some.injEq] at h
          exact h ▸ .registered x.send (Int.not_lt.mp hfd) hfree hroom
        · rw [if_neg hroom, Option.some.injEq] at h
          exact h ▸ served_answered fullReply x.send hfree
      · rw [if_neg hsub, Option.some.injEq] at h
        exact h ▸ served_answered (reply d (request bytes)) x.send hfree

end Ipc
end Wlinkd
end LinuxLab
