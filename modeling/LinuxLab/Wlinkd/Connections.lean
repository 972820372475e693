import LinuxLab.Lib.Claims
import LinuxLab.Lib.Descriptors
import LinuxLab.Lib.LinkedHeap

/-!
# tcp_server: a connection from accept to close

The accept loop of `tcp_server_thread` passes each descriptor to a new thread by way of an
`int` that it allocates, and the thread frees the `int` and closes the descriptor.  The
kernel gives out a number again as soon as it is closed, so a thread that kept one too long
would write to another client.  Here the loop and the threads take turns in any order.

Neither `malloc` nor `pthread_create` is checked.  Without memory the loop writes through a
null pointer.  Without a thread nobody reads the `int`, the connection stays open, and the
loop passes an identifier that was never set to `pthread_detach`.  That is undefined: the
call may come back, and then the loop goes on, or it does not.  The flag `g_running` of
`tcp_server.c` is a variable of its own, and nothing clears it: the loop ends when `accept`
fails.

Each thread has the number of the connection that it was made for, and the texts that it
passed to `send` with success.  Both are only written down, and so are the calls of
`pthread_detach` without an identifier.
-/

namespace LinuxLab
namespace Wlinkd
namespace Connections

open Lib

inductive ServerPc where
  | accepting
  | accepted (cliFd : Int) (conn : Nat)
  | boxed (pfd : Addr) (conn : Nat)
  /-- Before `pthread_detach`; the identifier is set if the thread was made. -/
  | detaching (tid : Nat) (made : Bool)
  | left
  | faulted (cliFd : Int) (conn : Nat)
  /-- A call of `pthread_detach` without an identifier has not come back. -/
  | undefined
deriving DecidableEq, Repr

/-- Where `client_handler` is.  `failed` is the thread that `pthread_create` did not make. -/
inductive ThreadPc where
  | starting (pfd : Addr)
  | serving (clientFd : Int)
  | ended
  | failed (pfd : Addr)
deriving DecidableEq, Repr

structure Thread where
  conn : Nat
  pc : ThreadPc
  sent : List CString
deriving DecidableEq, Repr

structure State where
  kernel : Descriptors
  -- The blocks of `malloc(sizeof(int))`.
  boxes : Addr → Option Int
  server : ServerPc
  threads : Nat → Option Thread
  created : Nat
  -- The threads that were not made and for which `pthread_detach` was called all the same.
  unsetDetaches : List Nat

inductive Action where
  /-- The answer of `accept`: a descriptor, `EINTR`, or another error. -/
  | accept (cliFd : Int)
  | interrupted
  | acceptFails
  | malloc (pfd : Option Addr)
  | create (ok : Bool)
  /-- Whether a call without an identifier comes back. -/
  | detach (returns : Bool)
  | start (tid : Nat)
  | send (tid : Nat) (text : CString) (ok : Bool)
  | finish (tid : Nat)

/-- `tcp_server_thread` before its first `accept`. -/
def init (serverFd : Int) : State where
  kernel :=
    { table := Function.update (fun _ => none) serverFd (some .listener)
      accepted := 0
      sent := fun _ => []
      badCloses := [] }
  boxes := fun _ => none
  server := .accepting
  threads := fun _ => none
  created := 0
  unsetDetaches := []

def State.setThread (s : State) (tid : Nat) (th : Thread) : State :=
  { s with threads := Function.update s.threads tid (some th) }

def step (s : State) : Action → Option State
  | .accept cliFd =>
    if s.server = .accepting ∧ s.kernel.table cliFd = none then
      some { s with
        kernel := s.kernel.accept cliFd
        server := .accepted cliFd s.kernel.accepted }
    else none
  | .interrupted => if s.server = .accepting then some s else none
  | .acceptFails => if s.server = .accepting then some { s with server := .left } else none
  | .malloc pfd =>
    match s.server, pfd with
    | .accepted cliFd conn, none => some { s with server := .faulted cliFd conn }
    | .accepted cliFd conn, some pfd =>
      if s.boxes pfd = none then
        some { s with
          boxes := Function.update s.boxes pfd (some cliFd)
          server := .boxed pfd conn }
      else none
    | _, _ => none
  | .create ok =>
    match s.server with
    | .boxed pfd conn =>
      some
        { s.setThread s.created ⟨conn, if ok then .starting pfd else .failed pfd, []⟩ with
          server := .detaching s.created ok
          created := s.created + 1 }
    | _ => none
  | .detach returns =>
    match s.server with
    | .detaching _ true => some { s with server := .accepting }
    | .detaching tid false =>
      some { s with
        server := if returns then .accepting else .undefined
        unsetDetaches := s.unsetDetaches ++ [tid] }
    | _ => none
  | .start tid =>
    match s.threads tid with
    | some ⟨conn, .starting pfd, sent⟩ =>
      (s.boxes pfd).map fun clientFd =>
        { s.setThread tid ⟨conn, .serving clientFd, sent⟩ with
          boxes := Function.update s.boxes pfd none }
    | _ => none
  | .send tid text ok =>
    match s.threads tid with
    | some ⟨conn, .serving clientFd, sent⟩ =>
      some
        { s.setThread tid ⟨conn, .serving clientFd, if ok then sent ++ [text] else sent⟩ with
          kernel := s.kernel.send clientFd text ok }
    | _ => none
  | .finish tid =>
    match s.threads tid with
    | some ⟨conn, .serving clientFd, sent⟩ =>
      some
        { s.setThread tid ⟨conn, .ended, sent⟩ with kernel := s.kernel.close clientFd }
    | _ => none

/-- What the steps can do. -/
inductive Taken (s : State) : Action → State → Prop where
  | accept {cliFd : Int} (hserver : s.server = .accepting)
      (hfd : s.kernel.table cliFd = none) :
      Taken s (.accept cliFd) { s with
        kernel := s.kernel.accept cliFd
        server := .accepted cliFd s.kernel.accepted }
  | interrupted : Taken s .interrupted s
  | acceptFails (hserver : s.server = .accepting) :
      Taken s .acceptFails { s with server := .left }
  | noMemory {cliFd : Int} {conn : Nat} (hserver : s.server = .accepted cliFd conn) :
      Taken s (.malloc none) { s with server := .faulted cliFd conn }
  | malloc {cliFd : Int} {conn : Nat} {pfd : Addr} (hserver : s.server = .accepted cliFd conn)
      (hpfd : s.boxes pfd = none) :
      Taken s (.malloc (some pfd)) { s with
        boxes := Function.update s.boxes pfd (some cliFd)
        server := .boxed pfd conn }
  | create {pfd : Addr} {conn : Nat} (ok : Bool) (hserver : s.server = .boxed pfd conn) :
      Taken s (.create ok)
        { s.setThread s.created ⟨conn, if ok then .starting pfd else .failed pfd, []⟩ with
          server := .detaching s.created ok
          created := s.created + 1 }
  | detach {tid : Nat} {returns : Bool} (hserver : s.server = .detaching tid true) :
      Taken s (.detach returns) { s with server := .accepting }
  | detachUnset {tid : Nat} {returns : Bool} {pc : ServerPc}
      (hserver : s.server = .detaching tid false) (hpc : pc = .accepting ∨ pc = .undefined) :
      Taken s (.detach returns) { s with
        server := pc
        unsetDetaches := s.unsetDetaches ++ [tid] }
  | start {tid conn : Nat} {pfd : Addr} {clientFd : Int} {sent : List CString}
      (hth : s.threads tid = some ⟨conn, .starting pfd, sent⟩)
      (hpfd : s.boxes pfd = some clientFd) :
      Taken s (.start tid) { s.setThread tid ⟨conn, .serving clientFd, sent⟩ with
        boxes := Function.update s.boxes pfd none }
  | send {tid conn : Nat} {clientFd : Int} {sent : List CString} (text : CString) (ok : Bool)
      (hth : s.threads tid = some ⟨conn, .serving clientFd, sent⟩) :
      Taken s (.send tid text ok)
        { s.setThread tid ⟨conn, .serving clientFd, if ok then sent ++ [text] else sent⟩ with
          kernel := s.kernel.send clientFd text ok }
  | finish {tid conn : Nat} {clientFd : Int} {sent : List CString}
      (hth : s.threads tid = some ⟨conn, .serving clientFd, sent⟩) :
      Taken s (.finish tid)
        { s.setThread tid ⟨conn, .ended, sent⟩ with kernel := s.kernel.close clientFd }

section Taken

variable {s t : State}

theorem taken_of_malloc {pfd : Option Addr} (h : step s (.malloc pfd) = some t) :
    Taken s (.malloc pfd) t := by
  simp only [step] at h
  split at h
  next cliFd conn hserver =>
    obtain rfl := Option.some.inj h
    exact .noMemory hserver
  next cliFd conn pfd hserver =>
    obtain ⟨hpfd, rfl⟩ := Option.ite_some_none_eq_some.mp h
    exact .malloc hserver hpfd
  next => exact absurd h.symm (Option.some_ne_none t)

theorem taken_of_detach {returns : Bool} (h : step s (.detach returns) = some t) :
    Taken s (.detach returns) t := by
  simp only [step] at h
  split at h
  next tid hserver =>
    obtain rfl := Option.some.inj h
    exact .detach hserver
  next tid hserver =>
    obtain rfl := Option.some.inj h
    refine .detachUnset hserver ?_
    cases returns with
    | true => exact .inl rfl
    | false => exact .inr rfl
  next => exact absurd h.symm (Option.some_ne_none t)

theorem taken_of_step {a : Action} (h : step s a = some t) : Taken s a t := by
  cases a with
  | accept cliFd =>
    obtain ⟨⟨hserver, hfd⟩, rfl⟩ := Option.ite_some_none_eq_some.mp h
    exact .accept hserver hfd
  | interrupted =>
    obtain ⟨-, rfl⟩ := Option.ite_some_none_eq_some.mp h
    exact .interrupted
  | acceptFails =>
    obtain ⟨hserver, rfl⟩ := Option.ite_some_none_eq_some.mp h
    exact .acceptFails hserver
  | malloc pfd => exact taken_of_malloc h
  | create ok =>
    simp only [step] at h
    split at h
    next pfd conn hserver =>
      obtain rfl := Option.some.inj h
      exact .create ok hserver
    next => exact absurd h.symm (Option.some_ne_none t)
  | detach returns => exact taken_of_detach h
  | start tid =>
    simp only [step] at h
    split at h
    next conn pfd sent hth =>
      obtain ⟨clientFd, hpfd, rfl⟩ := Option.map_eq_some_iff.mp h
      exact .start hth hpfd
    next => exact absurd h.symm (Option.some_ne_none t)
  | send tid text ok =>
    simp only [step] at h
    split at h
    next conn clientFd sent hth =>
      obtain rfl := Option.some.inj h
      exact .send text ok hth
    next => exact absurd h.symm (Option.some_ne_none t)
  | finish tid =>
    simp only [step] at h
    split at h
    next conn clientFd sent hth =>
      obtain rfl := Option.some.inj h
      exact .finish hth
    next => exact absurd h.symm (Option.some_ne_none t)

end Taken

/-! ## Who holds what

The places are the accept loop, `none`, and the threads. -/

def ServerPc.conn : ServerPc → Option Nat
  | .accepted _ conn => some conn
  | .boxed _ conn => some conn
  | .faulted _ conn => some conn
  | _ => none

def ServerPc.box : ServerPc → Option Addr
  | .boxed pfd _ => some pfd
  | _ => none

def ServerPc.fd (boxes : Addr → Option Int) : ServerPc → Option Int
  | .accepted cliFd _ => some cliFd
  | .boxed pfd _ => boxes pfd
  | .faulted cliFd _ => some cliFd
  | _ => none

def ThreadPc.box : ThreadPc → Option Addr
  | .starting pfd => some pfd
  | .failed pfd => some pfd
  | _ => none

def ThreadPc.fd (boxes : Addr → Option Int) : ThreadPc → Option Int
  | .starting pfd => boxes pfd
  | .failed pfd => boxes pfd
  | .serving clientFd => some clientFd
  | .ended => none

/-- The connection that a place was made for, also when it has ended. -/
def madeFor (s : State) : Option Nat → Option Nat
  | none => s.server.conn
  | some tid => (s.threads tid).map Thread.conn

/-- The block that a place has a pointer to. -/
def boxClaim (s : State) : Option Nat → Option Addr
  | none => s.server.box
  | some tid => (s.threads tid).bind (fun th => th.pc.box)

/-- The descriptor that a place has, itself or in its block. -/
def fdOf (s : State) : Option Nat → Option Int
  | none => s.server.fd s.boxes
  | some tid => (s.threads tid).bind (fun th => th.pc.fd s.boxes)

structure Inv (s : State) : Prop where
  made : Exclusive (madeFor s) (fun n => n < s.kernel.accepted)
  boxed : Exclusive (boxClaim s) (fun a => s.boxes a ≠ none)
  leads : ∀ o n, madeFor s o = some n → ∀ fd,
    s.kernel.table fd = some (.conn n) ↔ fdOf s o = some fd
  below : ∀ fd n, s.kernel.table fd = some (.conn n) → n < s.kernel.accepted
  sent : ∀ tid th, s.threads tid = some th → s.kernel.sent th.conn = th.sent
  unsent : ∀ n, madeFor s none = some n ∨ s.kernel.accepted ≤ n → s.kernel.sent n = []
  fresh : ∀ tid, s.created ≤ tid → s.threads tid = none
  closes : s.kernel.badCloses = []

theorem init_inv (serverFd : Int) : Inv (init serverFd) := by
  have hnoConn : ∀ fd n, (init serverFd).kernel.table fd ≠ some (.conn n) := by
    intro fd n h
    have hupdate : Function.update (fun _ => none) serverFd (some Target.listener) fd =
        some (.conn n) := h
    rcases update_eq_some hupdate with ⟨-, hconn⟩ | ⟨-, hconn⟩
    · exact absurd (Option.some.inj hconn) Target.noConfusion
    · exact Option.some_ne_none _ hconn.symm
  have hnoMade : ∀ o, madeFor (init serverFd) o = none := by
    intro o
    cases o <;> rfl
  have hnoBox : ∀ o, boxClaim (init serverFd) o = none := by
    intro o
    cases o <;> rfl
  refine ⟨⟨fun o n h => ?_, fun n hn => absurd hn (Nat.not_lt_zero n), fun o o' n h => ?_⟩,
    ⟨fun o a h => ?_, fun a ha => absurd rfl ha, fun o o' a h => ?_⟩, fun o n h => ?_,
    fun fd n h => absurd h (hnoConn fd n), fun tid th h => ?_, fun _ _ => rfl, fun _ _ => rfl,
    rfl⟩
  · exact absurd ((hnoMade o).symm.trans h).symm (Option.some_ne_none n)
  · exact absurd ((hnoMade o).symm.trans h).symm (Option.some_ne_none n)
  · exact absurd ((hnoBox o).symm.trans h).symm (Option.some_ne_none a)
  · exact absurd ((hnoBox o).symm.trans h).symm (Option.some_ne_none a)
  · exact absurd ((hnoMade o).symm.trans h).symm (Option.some_ne_none n)
  · exact absurd h.symm (Option.some_ne_none th)

section Steps

variable {s t : State}

/-- A step after which every place has the connection it had. -/
theorem madeFor_eq (hserver : t.server.conn = s.server.conn)
    (hthreads : ∀ tid, (t.threads tid).map Thread.conn = (s.threads tid).map Thread.conn) :
    madeFor t = madeFor s := by
  funext o
  cases o with
  | none => exact hserver
  | some tid => exact hthreads tid

/-- What a place has in its block it also has after a step that leaves the block alone. -/
theorem fd_congr {boxes boxes' : Addr → Option Int} {pc : ThreadPc}
    (h : ∀ a, pc.box = some a → boxes' a = boxes a) : pc.fd boxes' = pc.fd boxes := by
  cases pc with
  | starting pfd => exact h pfd rfl
  | failed pfd => exact h pfd rfl
  | serving clientFd => rfl
  | ended => rfl

/-! ## The accept loop -/

theorem accept_inv {cliFd : Int} (h : Inv s) (hserver : s.server = .accepting)
    (hfd : s.kernel.table cliFd = none) (hkernel : t.kernel = s.kernel.accept cliFd)
    (hboxes : t.boxes = s.boxes) (hserver' : t.server = .accepted cliFd s.kernel.accepted)
    (hthreads : t.threads = s.threads) (hcreated : t.created = s.created) : Inv t := by
  have hfree : madeFor s none = none := by
    rw [madeFor, hserver]
    rfl
  have hmade : madeFor t = Function.update (madeFor s) none (some s.kernel.accepted) := by
    funext o
    cases o with
    | none => rw [Function.update_self, madeFor, hserver', ServerPc.conn]
    | some tid => rw [Function.update_of_ne (Option.some_ne_none tid), madeFor, madeFor, hthreads]
  have hbox : boxClaim t = boxClaim s := by
    funext o
    cases o with
    | none =>
      rw [boxClaim, boxClaim, hserver', hserver]
      rfl
    | some tid => rw [boxClaim, boxClaim, hthreads]
  have haccepted : t.kernel.accepted = s.kernel.accepted + 1 := by rw [hkernel]; rfl
  have hother : ∀ fd n, n ≠ s.kernel.accepted →
      (t.kernel.table fd = some (.conn n) ↔ s.kernel.table fd = some (.conn n)) := by
    intro fd n hn
    rw [hkernel]
    by_cases hself : fd = cliFd
    · rw [hself, Descriptors.table_accept_self, hfd, Option.some.injEq, Target.conn.injEq]
      exact iff_of_false (fun e => hn e.symm) (Option.some_ne_none _).symm
    · rw [Descriptors.table_accept_ne hself]
  have hnew : ∀ fd, t.kernel.table fd = some (.conn s.kernel.accepted) ↔
      some cliFd = some fd := by
    intro fd
    rw [hkernel]
    by_cases hself : fd = cliFd
    · rw [hself, Descriptors.table_accept_self]
      exact iff_of_true rfl rfl
    · rw [Descriptors.table_accept_ne hself, Option.some.injEq]
      exact iff_of_false (fun ht => Nat.lt_irrefl _ (h.below fd _ ht)) (fun e => hself e.symm)
  refine ⟨?_, ?_, fun o n hn fd => ?_, fun fd n hn => ?_, fun tid th hth => ?_, fun n hn => ?_,
    fun tid htid => ?_, ?_⟩
  · rw [hmade]
    refine h.made.grant hfree (Nat.lt_irrefl _) (fun n => ?_)
    rw [haccepted]
    exact Nat.lt_succ_iff_lt_or_eq.trans or_comm
  · rw [hbox, hboxes]
    exact h.boxed
  · rw [hmade] at hn
    rcases update_eq_some hn with ⟨rfl, hn⟩ | ⟨ho, hn⟩
    · obtain rfl := Option.some.inj hn
      rw [hnew fd, fdOf, hserver', ServerPc.fd]
    · rw [hother fd n (Nat.ne_of_lt (h.made.valid o n hn)), h.leads o n hn fd]
      cases o with
      | none => exact absurd rfl ho
      | some tid => rw [fdOf, fdOf, hthreads, hboxes]
  · rw [haccepted]
    by_cases hacc : n = s.kernel.accepted
    · exact Nat.lt_succ_of_le (Nat.le_of_eq hacc)
    · exact Nat.lt_succ_of_lt (h.below fd n ((hother fd n hacc).mp hn))
  · rw [hthreads] at hth
    rw [hkernel]
    exact h.sent tid th hth
  · rw [hkernel]
    refine h.unsent n (.inr ?_)
    rw [hmade, Function.update_self, haccepted] at hn
    rcases hn with hn | hn
    · exact Nat.le_of_eq (Option.some.inj hn)
    · exact Nat.le_of_succ_le hn
  · rw [hthreads]
    exact h.fresh tid (hcreated ▸ htid)
  · rw [hkernel]
    exact h.closes

/-- The loop moves on with what it has. -/
theorem server_inv (h : Inv s) (hconn : t.server.conn = s.server.conn)
    (hbox : t.server.box = s.server.box) (hfd : t.server.fd s.boxes = s.server.fd s.boxes)
    (hkernel : t.kernel = s.kernel) (hboxes : t.boxes = s.boxes)
    (hthreads : t.threads = s.threads) (hcreated : t.created = s.created) : Inv t := by
  have hmade : madeFor t = madeFor s := madeFor_eq hconn (fun tid => by rw [hthreads])
  have hclaim : boxClaim t = boxClaim s := by
    funext o
    cases o with
    | none => exact hbox
    | some tid => rw [boxClaim, boxClaim, hthreads]
  have hfdOf : fdOf t = fdOf s := by
    funext o
    cases o with
    | none => rw [fdOf, fdOf, hboxes, hfd]
    | some tid => rw [fdOf, fdOf, hthreads, hboxes]
  refine ⟨?_, ?_, ?_, ?_, ?_, ?_, ?_, ?_⟩
  · rw [hmade, hkernel]
    exact h.made
  · rw [hclaim, hboxes]
    exact h.boxed
  · rw [hmade, hkernel, hfdOf]
    exact h.leads
  · rw [hkernel]
    exact h.below
  · rw [hthreads, hkernel]
    exact h.sent
  · rw [hmade, hkernel]
    exact h.unsent
  · rw [hthreads, hcreated]
    exact h.fresh
  · rw [hkernel]
    exact h.closes

/-- The loop writes the descriptor to a new block. -/
theorem malloc_inv {cliFd : Int} {conn : Nat} {pfd : Addr} (h : Inv s)
    (hserver : s.server = .accepted cliFd conn) (hpfd : s.boxes pfd = none)
    (hkernel : t.kernel = s.kernel)
    (hboxes : t.boxes = Function.update s.boxes pfd (some cliFd))
    (hserver' : t.server = .boxed pfd conn) (hthreads : t.threads = s.threads)
    (hcreated : t.created = s.created) : Inv t := by
  have hmade : madeFor t = madeFor s := by
    refine madeFor_eq ?_ (fun tid => by rw [hthreads])
    rw [hserver, hserver', ServerPc.conn, ServerPc.conn]
  have hbox : boxClaim t = Function.update (boxClaim s) none (some pfd) := by
    funext o
    cases o with
    | none => rw [Function.update_self, boxClaim, hserver', ServerPc.box]
    | some tid =>
      rw [Function.update_of_ne (Option.some_ne_none tid), boxClaim, boxClaim, hthreads]
  have hfree : boxClaim s none = none := by
    rw [boxClaim, hserver]
    rfl
  have hother : ∀ a, a ≠ pfd → t.boxes a = s.boxes a := by
    intro a ha
    rw [hboxes, Function.update_of_ne ha]
  have hself : t.boxes pfd = some cliFd := by rw [hboxes, Function.update_self]
  refine ⟨?_, ?_, fun o n hn fd => ?_, ?_, ?_, ?_, ?_, ?_⟩
  · rw [hmade, hkernel]
    exact h.made
  · rw [hbox]
    refine h.boxed.grant hfree (fun hne => hne hpfd) (fun a => ?_)
    by_cases ha : a = pfd
    · rw [ha, hself]
      exact iff_of_true (Option.some_ne_none _) (.inl rfl)
    · rw [hother a ha]
      exact (or_iff_right ha).symm
  · rw [hmade] at hn
    rw [hkernel, h.leads o n hn fd]
    cases o with
    | none => rw [fdOf, fdOf, hserver, hserver', ServerPc.fd, ServerPc.fd, hself]
    | some tid =>
      rw [fdOf, fdOf, hthreads]
      cases hth : s.threads tid with
      | none => rfl
      | some th =>
        -- a block that a thread points to is another one
        rw [Option.bind_some, Option.bind_some, fd_congr (fun a ha => hother a ?_)]
        rintro rfl
        refine h.boxed.valid (some tid) a ?_ hpfd
        rw [boxClaim, hth, Option.bind_some, ha]
  · rw [hkernel]
    exact h.below
  · rw [hthreads, hkernel]
    exact h.sent
  · rw [hmade, hkernel]
    exact h.unsent
  · rw [hthreads, hcreated]
    exact h.fresh
  · rw [hkernel]
    exact h.closes

/-- `pthread_create`: the block and the connection go to the thread, or to nobody. -/
theorem create_inv {conn : Nat} {pfd : Addr} {pc : ThreadPc} (h : Inv s)
    (hserver : s.server = .boxed pfd conn) (hpc : pc = .starting pfd ∨ pc = .failed pfd)
    (hkernel : t.kernel = s.kernel) (hboxes : t.boxes = s.boxes)
    (hconn' : t.server.conn = none) (hbox' : t.server.box = none)
    (hthreads : t.threads = Function.update s.threads s.created (some ⟨conn, pc, []⟩))
    (hcreated : t.created = s.created + 1) : Inv t := by
  have hbox : pc.box = some pfd := by rcases hpc with rfl | rfl <;> rfl
  have hfd : pc.fd s.boxes = s.boxes pfd := by rcases hpc with rfl | rfl <;> rfl
  have hnew : s.threads s.created = none := h.fresh s.created (Nat.le_refl _)
  have hmine : madeFor s none = some conn := by
    rw [madeFor, hserver]
    rfl
  have hself : t.threads s.created = some ⟨conn, pc, []⟩ := by rw [hthreads, Function.update_self]
  have hother : ∀ tid, tid ≠ s.created → t.threads tid = s.threads tid := by
    intro tid htid
    rw [hthreads, Function.update_of_ne htid]
  have hmoved : ∀ {ρ : Type} (f : State → Option Nat → Option ρ) (x : Option ρ),
      f t none = none → f t (some s.created) = x →
      (∀ tid, tid ≠ s.created → f t (some tid) = f s (some tid)) →
      f t = Function.update (Function.update (f s) none none) (some s.created) x := by
    intro ρ f x hnone hx hsame
    funext o
    cases o with
    | none =>
      rw [Function.update_of_ne (Option.some_ne_none _).symm, Function.update_self, hnone]
    | some tid =>
      by_cases htid : tid = s.created
      · rw [htid, Function.update_self, hx]
      · rw [Function.update_of_ne (fun e => htid (Option.some.inj e)),
          Function.update_of_ne (Option.some_ne_none tid), hsame tid htid]
  have hmade : madeFor t =
      Function.update (Function.update (madeFor s) none none) (some s.created) (some conn) := by
    refine hmoved madeFor (some conn) hconn' ?_ (fun tid htid => ?_)
    · rw [madeFor, hself, Option.map_some]
    · rw [madeFor, madeFor, hother tid htid]
  have hclaim : boxClaim t =
      Function.update (Function.update (boxClaim s) none none) (some s.created) (some pfd) := by
    refine hmoved boxClaim (some pfd) hbox' ?_ (fun tid htid => ?_)
    · rw [boxClaim, hself, Option.bind_some, hbox]
    · rw [boxClaim, boxClaim, hother tid htid]
  refine ⟨?_, ?_, fun o n hn fd => ?_, ?_, fun tid th hth => ?_, fun n hn => ?_,
    fun tid htid => ?_, ?_⟩
  · rw [hmade, hkernel]
    refine h.made.move hmine ?_
    rw [madeFor, hnew, Option.map_none]
  · rw [hclaim, hboxes]
    refine h.boxed.move ?_ ?_
    · rw [boxClaim, hserver, ServerPc.box]
    · rw [boxClaim, hnew, Option.bind_none]
  · rw [hkernel]
    cases o with
    | none => exact absurd (hconn'.symm.trans hn).symm (Option.some_ne_none n)
    | some tid =>
      by_cases htid : tid = s.created
      · rw [htid, madeFor, hself, Option.map_some] at hn
        obtain rfl : conn = n := Option.some.inj hn
        rw [h.leads none conn hmine fd, htid, fdOf, fdOf, hserver, hself, Option.bind_some, hboxes,
          hfd, ServerPc.fd]
      · have hn' : madeFor s (some tid) = some n := by
          rw [madeFor, hother tid htid] at hn
          exact hn
        rw [h.leads (some tid) n hn' fd, fdOf, fdOf, hother tid htid, hboxes]
  · rw [hkernel]
    exact h.below
  · rw [hkernel]
    by_cases htid : tid = s.created
    · rw [htid, hself, Option.some.injEq] at hth
      rw [← hth]
      exact h.unsent conn (.inl hmine)
    · exact h.sent tid th (hother tid htid ▸ hth)
  · rw [hkernel] at hn ⊢
    rcases hn with hn | hn
    · exact absurd (hconn'.symm.trans hn).symm (Option.some_ne_none n)
    · exact h.unsent n (.inr hn)
  · rw [hcreated] at htid
    rw [hother tid (Nat.ne_of_gt htid)]
    exact h.fresh tid (Nat.le_of_succ_le htid)
  · rw [hkernel]
    exact h.closes

/-! ## The threads -/

section Threads

variable {tid conn : Nat} {sent sent' : List CString} {pc pc' : ThreadPc} {clientFd : Int}

theorem madeFor_thread (hth : s.threads tid = some ⟨conn, pc, sent⟩)
    (hserver : t.server = s.server)
    (hthreads : t.threads = Function.update s.threads tid (some ⟨conn, pc', sent'⟩)) :
    madeFor t = madeFor s := by
  refine madeFor_eq (by rw [hserver]) (fun tid' => ?_)
  by_cases htid : tid' = tid
  · rw [htid, hthreads, Function.update_self, hth, Option.map_some, Option.map_some]
  · rw [hthreads, Function.update_of_ne htid]

theorem boxClaim_thread (hserver : t.server = s.server)
    (hthreads : t.threads = Function.update s.threads tid (some ⟨conn, pc', sent'⟩)) :
    boxClaim t = Function.update (boxClaim s) (some tid) pc'.box := by
  funext o
  cases o with
  | none => rw [Function.update_of_ne (Option.some_ne_none tid).symm, boxClaim, boxClaim, hserver]
  | some tid' =>
    by_cases htid : tid' = tid
    · rw [htid, Function.update_self, boxClaim, hthreads, Function.update_self, Option.bind_some]
    · rw [Function.update_of_ne (fun e => htid (Option.some.inj e)), boxClaim, boxClaim, hthreads,
        Function.update_of_ne htid]

/-- Another place has what it had, when its block is left alone. -/
theorem fdOf_other (hserver : t.server = s.server)
    (hthreads : t.threads = Function.update s.threads tid (some ⟨conn, pc', sent'⟩))
    {o : Option Nat} (ho : o ≠ some tid)
    (hboxes : ∀ a, boxClaim s o = some a → t.boxes a = s.boxes a) : fdOf t o = fdOf s o := by
  cases o with
  | none =>
    rw [fdOf, fdOf, hserver]
    cases hpc : s.server with
    | boxed pfd n =>
      refine hboxes pfd ?_
      rw [boxClaim, hpc, ServerPc.box]
    | accepting => rfl
    | accepted cliFd n => rfl
    | detaching i made => rfl
    | left => rfl
    | faulted cliFd n => rfl
    | undefined => rfl
  | some tid' =>
    rw [fdOf, fdOf, hthreads, Function.update_of_ne (fun e => ho (congrArg some e))]
    cases hth : s.threads tid' with
    | none => rfl
    | some th =>
      rw [Option.bind_some, Option.bind_some, fd_congr (fun a ha => hboxes a ?_)]
      rw [boxClaim, hth, Option.bind_some, ha]

theorem fresh_thread (h : Inv s) (hth : s.threads tid = some ⟨conn, pc, sent⟩)
    (hthreads : t.threads = Function.update s.threads tid (some ⟨conn, pc', sent'⟩))
    (hcreated : t.created = s.created) : ∀ i, t.created ≤ i → t.threads i = none := by
  intro i hi
  rw [hcreated] at hi
  have hne : i ≠ tid := by
    rintro rfl
    rw [h.fresh i hi] at hth
    exact Option.some_ne_none _ hth.symm
  rw [hthreads, Function.update_of_ne hne]
  exact h.fresh i hi

theorem madeFor_self (hth : s.threads tid = some ⟨conn, pc, sent⟩) :
    madeFor s (some tid) = some conn := by
  rw [madeFor, hth, Option.map_some]

/-- The descriptor of a serving thread leads to its connection. -/
theorem Inv.serving (h : Inv s) (hth : s.threads tid = some ⟨conn, .serving clientFd, sent⟩) :
    s.kernel.table clientFd = some (.conn conn) := by
  rw [h.leads (some tid) conn (madeFor_self hth) clientFd, fdOf, hth, Option.bind_some, ThreadPc.fd]

theorem Inv.conn_ne (h : Inv s) (hth : s.threads tid = some ⟨conn, pc, sent⟩) {o : Option Nat}
    {n : Nat} (ho : o ≠ some tid) (hn : madeFor s o = some n) : n ≠ conn := by
  rintro rfl
  exact ho (h.made.single o (some tid) n hn (madeFor_self hth))

/-- The thread takes the descriptor out of its block and frees the block. -/
theorem start_inv {pfd : Addr} (h : Inv s)
    (hth : s.threads tid = some ⟨conn, .starting pfd, sent⟩) (hpfd : s.boxes pfd = some clientFd)
    (hkernel : t.kernel = s.kernel) (hboxes : t.boxes = Function.update s.boxes pfd none)
    (hserver : t.server = s.server)
    (hthreads : t.threads = Function.update s.threads tid (some ⟨conn, .serving clientFd, sent⟩))
    (hcreated : t.created = s.created) : Inv t := by
  have hmade := madeFor_thread hth hserver hthreads
  have hmine : boxClaim s (some tid) = some pfd := by
    rw [boxClaim, hth, Option.bind_some, ThreadPc.box]
  have hself : t.threads tid = some ⟨conn, .serving clientFd, sent⟩ := by
    rw [hthreads, Function.update_self]
  have hother : ∀ a, a ≠ pfd → t.boxes a = s.boxes a := by
    intro a ha
    rw [hboxes, Function.update_of_ne ha]
  refine ⟨?_, ?_, fun o n hn fd => ?_, ?_, fun i th hi => ?_, ?_,
    fresh_thread h hth hthreads hcreated, ?_⟩
  · rw [hmade, hkernel]
    exact h.made
  · rw [boxClaim_thread hserver hthreads]
    refine h.boxed.release hmine (fun a => ?_)
    by_cases ha : a = pfd
    · rw [ha, hboxes, Function.update_self]
      exact iff_of_false (fun hne => hne rfl) (fun hne => hne.1 rfl)
    · rw [hother a ha]
      exact (and_iff_right ha).symm
  · rw [hmade] at hn
    rw [hkernel, h.leads o n hn fd]
    by_cases ho : o = some tid
    · rw [ho, fdOf, fdOf, hth, hself, Option.bind_some, Option.bind_some, ThreadPc.fd, ThreadPc.fd,
        hpfd]
    · rw [fdOf_other hserver hthreads ho (fun a ha => hother a ?_)]
      rintro rfl
      exact ho (h.boxed.single o (some tid) a ha hmine)
  · rw [hkernel]
    exact h.below
  · rw [hkernel]
    by_cases htid : i = tid
    · rw [htid, hself, Option.some.injEq] at hi
      rw [← hi]
      exact h.sent tid ⟨conn, .starting pfd, sent⟩ hth
    · rw [hthreads, Function.update_of_ne htid] at hi
      exact h.sent i th hi
  · rw [hmade, hkernel]
    exact h.unsent
  · rw [hkernel]
    exact h.closes

theorem send_inv {text : CString} {ok : Bool} (h : Inv s)
    (hth : s.threads tid = some ⟨conn, .serving clientFd, sent⟩)
    (hkernel : t.kernel = s.kernel.send clientFd text ok) (hboxes : t.boxes = s.boxes)
    (hserver : t.server = s.server)
    (hthreads : t.threads = Function.update s.threads tid
      (some ⟨conn, .serving clientFd, if ok then sent ++ [text] else sent⟩))
    (hcreated : t.created = s.created) : Inv t := by
  have hmade := madeFor_thread hth hserver hthreads
  have hleads := h.serving hth
  have htable : t.kernel.table = s.kernel.table := by rw [hkernel, Descriptors.table_send]
  have haccepted : t.kernel.accepted = s.kernel.accepted := by
    rw [hkernel, Descriptors.accepted_send]
  have hsame : boxClaim s (some tid) = none := by
    rw [boxClaim, hth]
    rfl
  have hunsent : ∀ n, n ≠ conn → t.kernel.sent n = s.kernel.sent n := by
    intro n hn
    rw [hkernel]
    refine Descriptors.sent_send_ne ?_
    rw [hleads, Ne, Option.some.injEq, Target.conn.injEq]
    exact fun e => hn e.symm
  refine ⟨?_, ?_, fun o n hn fd => ?_, ?_, fun i th hi => ?_, fun n hn => ?_,
    fresh_thread h hth hthreads hcreated, ?_⟩
  · rw [hmade, haccepted]
    exact h.made
  · rw [boxClaim_thread hserver hthreads, hboxes]
    have hnone : (ThreadPc.serving clientFd).box = boxClaim s (some tid) := hsame.symm
    rw [hnone, Function.update_eq_self]
    exact h.boxed
  · rw [hmade] at hn
    rw [htable, h.leads o n hn fd]
    by_cases ho : o = some tid
    · rw [ho, fdOf, fdOf, hth, hthreads, Function.update_self, Option.bind_some, Option.bind_some,
        ThreadPc.fd, ThreadPc.fd]
    · rw [fdOf_other hserver hthreads ho (fun a _ => by rw [hboxes])]
  · rw [htable, haccepted]
    exact h.below
  · by_cases htid : i = tid
    · rw [htid, hthreads, Function.update_self, Option.some.injEq] at hi
      rw [← hi, hkernel]
      cases ok with
      | true =>
        rw [Descriptors.sent_send_self hleads, h.sent tid _ hth]
        rfl
      | false =>
        rw [Descriptors.send_false, h.sent tid _ hth]
        rfl
    · rw [hthreads, Function.update_of_ne htid] at hi
      have hn : madeFor s (some i) = some th.conn := by rw [madeFor, hi, Option.map_some]
      rw [hunsent th.conn (h.conn_ne hth (fun e => htid (Option.some.inj e)) hn)]
      exact h.sent i th hi
  · rw [hmade, haccepted] at hn
    have hne : n ≠ conn := by
      rcases hn with hn | hn
      · exact h.conn_ne hth (Option.some_ne_none tid).symm hn
      · exact Nat.ne_of_gt (Nat.lt_of_lt_of_le (h.below clientFd conn hleads) hn)
    rw [hunsent n hne]
    exact h.unsent n hn
  · rw [hkernel, Descriptors.badCloses_send]
    exact h.closes

theorem finish_inv (h : Inv s) (hth : s.threads tid = some ⟨conn, .serving clientFd, sent⟩)
    (hkernel : t.kernel = s.kernel.close clientFd) (hboxes : t.boxes = s.boxes)
    (hserver : t.server = s.server)
    (hthreads : t.threads = Function.update s.threads tid (some ⟨conn, .ended, sent⟩))
    (hcreated : t.created = s.created) : Inv t := by
  have hmade := madeFor_thread hth hserver hthreads
  have hleads := h.serving hth
  have haccepted : t.kernel.accepted = s.kernel.accepted := by
    rw [hkernel, Descriptors.accepted_close]
  have hsent : t.kernel.sent = s.kernel.sent := by rw [hkernel, Descriptors.sent_close]
  have hself : t.kernel.table clientFd = none := by rw [hkernel, Descriptors.table_close_self]
  have hother : ∀ fd, fd ≠ clientFd → t.kernel.table fd = s.kernel.table fd := by
    intro fd hfd
    rw [hkernel, Descriptors.table_close_ne hfd]
  have hsame : boxClaim s (some tid) = none := by
    rw [boxClaim, hth]
    rfl
  refine ⟨?_, ?_, fun o n hn fd => ?_, fun fd n hn => ?_, fun i th hi => ?_, ?_,
    fresh_thread h hth hthreads hcreated, ?_⟩
  · rw [hmade, haccepted]
    exact h.made
  · rw [boxClaim_thread hserver hthreads, hboxes]
    have hnone : ThreadPc.ended.box = boxClaim s (some tid) := hsame.symm
    rw [hnone, Function.update_eq_self]
    exact h.boxed
  · rw [hmade] at hn
    by_cases ho : o = some tid
    · -- no other descriptor leads to the connection that is closed
      subst ho
      obtain rfl : n = conn := Option.some.inj (hn.symm.trans (madeFor_self hth))
      have hnone : fdOf t (some tid) = none := by
        rw [fdOf, hthreads, Function.update_self, Option.bind_some, ThreadPc.fd]
      rw [hnone]
      refine iff_of_false (fun hconn => ?_) (Option.some_ne_none fd).symm
      by_cases hfd : fd = clientFd
      · rw [hfd, hself] at hconn
        exact Option.some_ne_none _ hconn.symm
      · rw [hother fd hfd, h.leads (some tid) n hn fd, fdOf, hth, Option.bind_some, ThreadPc.fd,
          Option.some.injEq] at hconn
        exact hfd hconn.symm
    · have hne := h.conn_ne hth ho hn
      rw [fdOf_other hserver hthreads ho (fun a _ => by rw [hboxes]), ← h.leads o n hn fd]
      by_cases hfd : fd = clientFd
      · rw [hfd, hself, hleads, Option.some.injEq, Target.conn.injEq]
        exact iff_of_false (Option.some_ne_none _).symm (fun e => hne e.symm)
      · rw [hother fd hfd]
  · rw [haccepted]
    have hfd : fd ≠ clientFd := by
      rintro rfl
      rw [hself] at hn
      exact Option.some_ne_none _ hn.symm
    exact h.below fd n (hother fd hfd ▸ hn)
  · rw [hsent]
    by_cases htid : i = tid
    · rw [htid, hthreads, Function.update_self, Option.some.injEq] at hi
      rw [← hi]
      exact h.sent tid ⟨conn, .serving clientFd, sent⟩ hth
    · rw [hthreads, Function.update_of_ne htid] at hi
      exact h.sent i th hi
  · rw [hmade, haccepted, hsent]
    exact h.unsent
  · rw [hkernel, Descriptors.badCloses_close]
    · exact h.closes
    · rw [hleads]
      exact Option.some_ne_none _

end Threads

theorem step_inv {a : Action} (h : Inv s) (hstep : step s a = some t) : Inv t := by
  cases taken_of_step hstep with
  | accept hserver hfd => exact accept_inv h hserver hfd rfl rfl rfl rfl rfl
  | interrupted => exact h
  | acceptFails hserver =>
    refine server_inv h ?_ ?_ ?_ rfl rfl rfl rfl
    all_goals
      rw [hserver]
      rfl
  | noMemory hserver =>
    refine server_inv h ?_ ?_ ?_ rfl rfl rfl rfl
    all_goals
      rw [hserver]
      rfl
  | malloc hserver hpfd => exact malloc_inv h hserver hpfd rfl rfl rfl rfl rfl
  | create ok hserver =>
    refine create_inv h hserver ?_ rfl rfl rfl rfl rfl rfl
    cases ok with
    | true => exact .inl rfl
    | false => exact .inr rfl
  | detach hserver =>
    refine server_inv h ?_ ?_ ?_ rfl rfl rfl rfl
    all_goals
      rw [hserver]
      rfl
  | detachUnset hserver hpc =>
    refine server_inv h ?_ ?_ ?_ rfl rfl rfl rfl
    all_goals
      rw [hserver]
      rcases hpc with rfl | rfl <;> rfl
  | start hth hpfd => exact start_inv h hth hpfd rfl rfl rfl rfl rfl
  | send text ok hth => exact send_inv h hth rfl rfl rfl rfl rfl
  | finish hth => exact finish_inv h hth rfl rfl rfl rfl rfl

/-! ## Threads that were not made -/

def Failed (s : State) (tid : Nat) : Prop :=
  ∃ conn pfd sent, s.threads tid = some ⟨conn, .failed pfd, sent⟩

/-- The thread that was not made and for which `pthread_detach` comes next. -/
def ServerPc.unmade : ServerPc → Option Nat
  | .detaching tid false => some tid
  | _ => none

/-- `pthread_detach` was called for every thread that was not made, or is about to be. -/
def Detached (s : State) : Prop :=
  ∀ tid, Failed s tid ↔ tid ∈ s.unsetDetaches ∨ s.server.unmade = some tid

theorem init_detached (serverFd : Int) : Detached (init serverFd) := by
  intro tid
  refine iff_of_false ?_ ?_
  · rintro ⟨conn, pfd, sent, h⟩
    exact Option.some_ne_none _ h.symm
  · rintro (h | h)
    · exact List.not_mem_nil h
    · exact Option.some_ne_none tid h.symm

theorem Detached.failed_iff {tid : Nat} (h : Detached s) (hunmade : s.server.unmade = none) :
    Failed s tid ↔ tid ∈ s.unsetDetaches := by
  rw [h tid, hunmade, or_iff_left (Option.some_ne_none tid).symm]

/-- A step of the loop that makes no thread and calls no `pthread_detach` in vain. -/
theorem Detached.server (h : Detached s) (hunmade : s.server.unmade = none)
    (hunmade' : t.server.unmade = none) (hthreads : t.threads = s.threads)
    (hunset : t.unsetDetaches = s.unsetDetaches) : Detached t := by
  intro tid
  rw [hunmade', or_iff_left (Option.some_ne_none tid).symm, hunset, ← h.failed_iff hunmade,
    Failed, hthreads, Failed]

/-- A step of a thread, which was made. -/
theorem Detached.thread {tid conn : Nat} {pc pc' : ThreadPc} {sent sent' : List CString}
    (h : Detached s) (hth : s.threads tid = some ⟨conn, pc, sent⟩)
    (hpc : ∀ pfd, pc ≠ .failed pfd) (hpc' : ∀ pfd, pc' ≠ .failed pfd)
    (hthreads : t.threads = Function.update s.threads tid (some ⟨conn, pc', sent'⟩))
    (hserver : t.server = s.server) (hunset : t.unsetDetaches = s.unsetDetaches) :
    Detached t := by
  intro i
  rw [hserver, hunset, ← h i]
  by_cases hi : i = tid
  · rw [hi]
    refine iff_of_false ?_ ?_
    · rintro ⟨n, pfd, texts, hfailed⟩
      rw [hthreads, Function.update_self, Option.some.injEq, Thread.mk.injEq] at hfailed
      exact hpc' pfd hfailed.2.1
    · rintro ⟨n, pfd, texts, hfailed⟩
      rw [hth, Option.some.injEq, Thread.mk.injEq] at hfailed
      exact hpc pfd hfailed.2.1
  · rw [Failed, hthreads, Function.update_of_ne hi, Failed]

/-- `pthread_create` makes the thread, or fails and is followed by `pthread_detach`. -/
theorem Detached.create {conn : Nat} {pfd : Addr} {ok : Bool} (h : Detached s) (hI : Inv s)
    (hunmade : s.server.unmade = none)
    (hthreads : t.threads = Function.update s.threads s.created
      (some ⟨conn, if ok then .starting pfd else .failed pfd, []⟩))
    (hserver : t.server = .detaching s.created ok)
    (hunset : t.unsetDetaches = s.unsetDetaches) : Detached t := by
  have hnew : s.created ∉ s.unsetDetaches := by
    rw [← h.failed_iff hunmade]
    rintro ⟨n, a, texts, hth⟩
    rw [hI.fresh s.created (Nat.le_refl _)] at hth
    exact Option.some_ne_none _ hth.symm
  intro tid
  rw [hunset, hserver]
  by_cases htid : tid = s.created
  · rw [htid, or_iff_right hnew, Failed, hthreads, Function.update_self]
    cases ok with
    | true =>
      refine iff_of_false ?_ (Option.some_ne_none _).symm
      rintro ⟨n, a, texts, hth⟩
      rw [Option.some.injEq, Thread.mk.injEq] at hth
      exact ThreadPc.noConfusion hth.2.1
    | false => exact iff_of_true ⟨conn, pfd, [], rfl⟩ rfl
  · have hother : (ServerPc.detaching s.created ok).unmade ≠ some tid := by
      cases ok with
      | true => exact (Option.some_ne_none tid).symm
      | false => exact fun e => htid (Option.some.inj e).symm
    rw [or_iff_left hother, ← h.failed_iff hunmade, Failed, hthreads, Function.update_of_ne htid,
      Failed]

/-- `pthread_detach` for a thread that was not made. -/
theorem Detached.detach {tid : Nat} (h : Detached s) (hunmade : s.server.unmade = some tid)
    (hunmade' : t.server.unmade = none) (hthreads : t.threads = s.threads)
    (hunset : t.unsetDetaches = s.unsetDetaches ++ [tid]) : Detached t := by
  intro i
  have hi := h i
  rw [hunmade, Option.some.injEq] at hi
  rw [hunmade', or_iff_left (Option.some_ne_none i).symm, hunset, List.mem_append,
    List.mem_singleton, eq_comm, ← hi, Failed, hthreads, Failed]

theorem step_detached {a : Action} (hI : Inv s) (h : Detached s) (hstep : step s a = some t) :
    Detached t := by
  cases taken_of_step hstep with
  | accept hserver _ => exact h.server (hserver ▸ rfl) rfl rfl rfl
  | interrupted => exact h
  | acceptFails hserver => exact h.server (hserver ▸ rfl) rfl rfl rfl
  | noMemory hserver => exact h.server (hserver ▸ rfl) rfl rfl rfl
  | malloc hserver _ => exact h.server (hserver ▸ rfl) rfl rfl rfl
  | create ok hserver => exact h.create hI (hserver ▸ rfl) rfl rfl rfl
  | detach hserver => exact h.server (hserver ▸ rfl) rfl rfl rfl
  | @detachUnset tid _ pc hserver hpc =>
    have hunmade : s.server.unmade = some tid := by
      rw [hserver]
      rfl
    have hunmade' : pc.unmade = none := by rcases hpc with rfl | rfl <;> rfl
    exact h.detach hunmade hunmade' rfl rfl
  | start hth _ =>
    exact h.thread hth (fun _ => ThreadPc.noConfusion) (fun _ => ThreadPc.noConfusion) rfl rfl rfl
  | send text ok hth =>
    exact h.thread hth (fun _ => ThreadPc.noConfusion) (fun _ => ThreadPc.noConfusion) rfl rfl rfl
  | finish hth =>
    exact h.thread hth (fun _ => ThreadPc.noConfusion) (fun _ => ThreadPc.noConfusion) rfl rfl rfl

end Steps

/-! ## Whole runs -/

section Runs

variable {serverFd : Int} {acts : List Action} {s : State}

theorem run_inv (hrun : exec step (init serverFd) acts = some s) : Inv s :=
  exec_invariant (fun _ _ _ h hstep => step_inv h hstep) (init_inv serverFd) hrun

theorem run_detached (hrun : exec step (init serverFd) acts = some s) : Detached s := by
  -- That a new thread has a new number comes from the other invariant.
  have hstep : ∀ s a t, Inv s ∧ Detached s → step s a = some t → Inv t ∧ Detached t :=
    fun _ _ _ h ht => ⟨step_inv h.1 ht, step_detached h.1 h.2 ht⟩
  exact (exec_invariant hstep ⟨init_inv serverFd, init_detached serverFd⟩ hrun).2

/-- However the threads take turns and the kernel reuses its numbers, no descriptor is closed
that is not open, a serving thread's descriptor leads to the connection that it was made for,
what was sent on that connection is what the thread sent, and no two threads share one. -/
theorem connections_never_cross (hrun : exec step (init serverFd) acts = some s) :
    s.kernel.badCloses = [] ∧
      (∀ tid th, s.threads tid = some th →
        s.kernel.sent th.conn = th.sent ∧
          ∀ fd, th.pc = .serving fd → s.kernel.table fd = some (.conn th.conn)) ∧
      ∀ tid tid' th th', s.threads tid = some th → s.threads tid' = some th' →
        th.conn = th'.conn → tid = tid' := by
  have h := run_inv hrun
  refine ⟨h.closes, fun tid th hth => ⟨h.sent tid th hth, ?_⟩, ?_⟩
  · rintro fd hpc
    obtain ⟨conn, pc, sent⟩ := th
    obtain rfl : pc = .serving fd := hpc
    exact h.serving hth
  · intro tid tid' th th' hth hth' hconn
    have hmine : madeFor s (some tid) = some th.conn := by rw [madeFor, hth, Option.map_some]
    have hmine' : madeFor s (some tid') = some th.conn := by
      rw [madeFor, hth', Option.map_some, hconn]
    exact Option.some.inj (h.made.single _ _ _ hmine hmine')

/-- When the loop is in `accept` or has left, and no thread is at work, the connections and
the blocks that are still there are exactly those of the threads that could not be made, and
it is for these threads that `pthread_detach` was called without an identifier. -/
theorem leaks_are_failed_threads (hrun : exec step (init serverFd) acts = some s)
    (hserver : s.server = .accepting ∨ s.server = .left)
    (hquiet : ∀ tid th, s.threads tid = some th → th.pc = .ended ∨ ∃ pfd, th.pc = .failed pfd) :
    (∀ n, (∃ fd, s.kernel.table fd = some (.conn n)) ↔
        ∃ tid pfd sent, s.threads tid = some ⟨n, .failed pfd, sent⟩) ∧
      (∀ a, s.boxes a ≠ none ↔ ∃ tid n sent, s.threads tid = some ⟨n, .failed a, sent⟩) ∧
      ∀ tid, tid ∈ s.unsetDetaches ↔ ∃ n pfd sent, s.threads tid = some ⟨n, .failed pfd, sent⟩ := by
  have h := run_inv hrun
  have hnoMade : madeFor s none = none := by
    rcases hserver with hserver | hserver <;> rw [madeFor, hserver] <;> rfl
  have hnoBox : boxClaim s none = none := by
    rcases hserver with hserver | hserver <;> rw [boxClaim, hserver] <;> rfl
  have hunmade : s.server.unmade = none := by
    rcases hserver with hserver | hserver <;> rw [hserver] <;> rfl
  refine ⟨fun n => ⟨?_, ?_⟩, fun a => ⟨fun ha => ?_, ?_⟩, fun tid => ?_⟩
  · rintro ⟨fd, hfd⟩
    obtain ⟨o, ho⟩ := h.made.owned n (h.below fd n hfd)
    have hheld := (h.leads o n ho fd).mp hfd
    cases o with
    | none => exact absurd (hnoMade.symm.trans ho).symm (Option.some_ne_none n)
    | some tid =>
      obtain ⟨⟨conn, pc, sent⟩, hth, rfl⟩ := Option.map_eq_some_iff.mp ho
      rw [fdOf, hth, Option.bind_some] at hheld
      rcases hquiet tid _ hth with rfl | ⟨pfd, rfl⟩
      · exact absurd hheld.symm (Option.some_ne_none fd)
      · exact ⟨tid, pfd, sent, hth⟩
  · rintro ⟨tid, pfd, sent, hth⟩
    have hbox : s.boxes pfd ≠ none := by
      refine h.boxed.valid (some tid) pfd ?_
      rw [boxClaim, hth, Option.bind_some, ThreadPc.box]
    obtain ⟨fd, hfd⟩ := Option.ne_none_iff_exists'.mp hbox
    refine ⟨fd, (h.leads (some tid) n (madeFor_self hth) fd).mpr ?_⟩
    rw [fdOf, hth, Option.bind_some, ThreadPc.fd, hfd]
  · obtain ⟨o, ho⟩ := h.boxed.owned a ha
    cases o with
    | none => exact absurd (hnoBox.symm.trans ho).symm (Option.some_ne_none a)
    | some tid =>
      obtain ⟨⟨conn, pc, sent⟩, hth, hpc⟩ := Option.bind_eq_some_iff.mp ho
      rcases hquiet tid _ hth with rfl | ⟨pfd, rfl⟩
      · exact absurd hpc.symm (Option.some_ne_none a)
      · obtain rfl : pfd = a := Option.some.inj hpc
        exact ⟨tid, conn, sent, hth⟩
  · rintro ⟨tid, n, sent, hth⟩
    refine h.boxed.valid (some tid) a ?_
    rw [boxClaim, hth, Option.bind_some, ThreadPc.box]
  · exact ((run_detached hrun).failed_iff hunmade).symm

end Runs

/-- A client is served and leaves, and the next one gets its descriptor. -/
def reusedNumber : List Action :=
  [.accept 5, .malloc (some 1), .create true, .start 0, .send 0 "Bye\n".toList true, .finish 0,
    .detach true, .accept 5, .malloc (some 1), .create true, .detach true, .start 1,
    .send 1 "Hi\n".toList true]

theorem connections_never_cross_reusedNumber :
    ∃ s, exec step (init 4) reusedNumber = some s ∧ s.kernel.sent 0 = ["Bye\n".toList] ∧
      s.kernel.sent 1 = ["Hi\n".toList] := by
  obtain ⟨s, hrun⟩ : ∃ s, exec step (init 4) reusedNumber = some s := ⟨_, rfl⟩
  obtain ⟨-, hsent, -⟩ := connections_never_cross hrun
  obtain rfl := Option.some.inj hrun
  exact ⟨_, rfl, (hsent 0 _ rfl).1, (hsent 1 _ rfl).1⟩

/-- A client is served, for the next one no thread can be made, and `pthread_detach` comes
back all the same. -/
def noThread : List Action :=
  [.accept 5, .malloc (some 1), .create true, .start 0, .detach true, .finish 0,
    .accept 5, .malloc (some 1), .create false, .detach true]

theorem leaks_are_failed_threads_noThread :
    ∃ s, exec step (init 4) noThread = some s ∧ (∃ fd, s.kernel.table fd = some (.conn 1)) ∧
      s.boxes 1 ≠ none ∧ 1 ∈ s.unsetDetaches := by
  obtain ⟨s, hrun⟩ : ∃ s, exec step (init 4) noThread = some s := ⟨_, rfl⟩
  have hserver : s.server = .accepting := by
    obtain rfl := Option.some.inj hrun
    rfl
  have hfailed : s.threads 1 = some ⟨1, .failed 1, []⟩ := by
    obtain rfl := Option.some.inj hrun
    rfl
  have hended : s.threads 0 = some ⟨0, .ended, []⟩ := by
    obtain rfl := Option.some.inj hrun
    rfl
  have hcreated : s.created = 2 := by
    obtain rfl := Option.some.inj hrun
    rfl
  have hquiet : ∀ tid th, s.threads tid = some th →
      th.pc = .ended ∨ ∃ pfd, th.pc = .failed pfd := by
    intro tid th hth
    have htid : tid < 2 := by
      by_contra hge
      rw [(run_inv hrun).fresh tid (hcreated ▸ Nat.not_lt.mp hge)] at hth
      exact Option.some_ne_none th hth.symm
    obtain rfl | rfl : tid = 0 ∨ tid = 1 := by omega
    · obtain rfl := Option.some.inj (hended.symm.trans hth)
      exact .inl rfl
    · obtain rfl := Option.some.inj (hfailed.symm.trans hth)
      exact .inr ⟨1, rfl⟩
  obtain ⟨hconn, hbox, hdetach⟩ := leaks_are_failed_threads hrun (.inl hserver) hquiet
  exact ⟨s, hrun, (hconn 1).mpr ⟨1, 1, [], hfailed⟩, (hbox 1).mpr ⟨1, 1, [], hfailed⟩,
    (hdetach 1).mpr ⟨1, 1, [], hfailed⟩⟩

end Connections
end Wlinkd
end LinuxLab
