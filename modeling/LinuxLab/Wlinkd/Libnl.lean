import Mathlib.Data.List.Basic

/-!
# wlan_libnl: one request and its replies

`wlan_libnl_send_and_recv` sends a request and calls `nl_recvmsgs` until one of
three callbacks has written the result variable.  What libnl and the kernel do is
an input here: whether the callback set can be allocated, what the send returns,
and the receives, each a batch of messages and the value that `nl_recvmsgs`
returns for it.  A batch ends at the first callback that answers `NL_STOP`.

A list of receives that is used up before the result is final leaves the function
waiting for the next one; it has not returned, and the answer is `none`.
-/

namespace LinuxLab
namespace Wlinkd

/-- What a callback tells libnl to do with the rest of the batch. -/
inductive NlAction where
  | ok
  | skip
  | stop
deriving DecidableEq, Repr

/-- A message of a reply: one for the valid callback, the end of a dump with the
status the kernel put into it, or an `NLMSG_ERROR`, whose code zero is an
acknowledgement. -/
inductive NlEvent (μ : Type) where
  | valid (msg : μ)
  | done (status : Int)
  | nlmsgerr (code : Int)
deriving DecidableEq, Repr

/-- One call of `nl_recvmsgs`. -/
structure NlRecv (μ : Type) where
  events : List (NlEvent μ)
  res : Int
deriving DecidableEq, Repr

/-- Everything outside the function that one request meets. -/
structure NlExchange (μ : Type) where
  cbAlloc : Bool
  send : Int
  recvs : List (NlRecv μ)
deriving DecidableEq, Repr

namespace WlanLibnl

def eNoMem : Int := 12
def eBadF : Int := 9
def eAgain : Int := 11
def nleDumpIntr : Int := 33

/-- `wlan_libnl_ack_cb`: its answer and what it writes to the result. -/
def ackCb : NlAction × Int := (.stop, 0)

/-- `wlan_libnl_finish_cb`.  The message, and with it the status, is not looked at. -/
def finishCb (_status : Int) : NlAction × Int := (.skip, 0)

def errorCb (error : Int) : NlAction × Int := (.stop, error)

section Receive

variable {μ σ : Type}

/-- libnl hands one message to the callback that is set for it. -/
def dispatch (validCb : μ → σ → NlAction × σ) (ev : NlEvent μ) (err : Int) (s : σ) :
    NlAction × Int × σ :=
  match ev with
  | .valid msg => ((validCb msg s).1, err, (validCb msg s).2)
  | .done status => ((finishCb status).1, (finishCb status).2, s)
  | .nlmsgerr code =>
    if code = 0 then (ackCb.1, ackCb.2, s) else ((errorCb code).1, (errorCb code).2, s)

/-- `nl_recvmsgs` over the messages of one batch. -/
def nlRecvmsgs (validCb : μ → σ → NlAction × σ) : List (NlEvent μ) → Int → σ → Int × σ
  | [], err, s => (err, s)
  | ev :: rest, err, s =>
    match dispatch validCb ev err s with
    | (.stop, err, s) => (err, s)
    | (_, err, s) => nlRecvmsgs validCb rest err s

/-- The loop `while (err > 0)`. -/
def recvLoop (validCb : μ → σ → NlAction × σ) : List (NlRecv μ) → Int → σ → Option (Int × σ)
  | [], err, s => if 0 < err then none else some (err, s)
  | r :: rest, err, s =>
    if 0 < err then
      let (err, s) := nlRecvmsgs validCb r.events err s
      if r.res = -nleDumpIntr then recvLoop validCb rest (-eAgain) s
      else recvLoop validCb rest err s
    else some (err, s)

/-- `wlan_libnl_send_and_recv`, for a message that was allocated. -/
def sendAndRecv (reqSock : Bool) (validCb : μ → σ → NlAction × σ) (x : NlExchange μ) (s : σ) :
    Option (Int × σ) :=
  if reqSock = false then some (-1, s)
  else if x.cbAlloc = false then some (-eNoMem, s)
  else if x.send < 0 then some (-eBadF, s)
  else recvLoop validCb x.recvs 1 s

/-- A valid callback that always answers `NL_SKIP`, as both of the daemon's do. -/
def skipping (f : μ → σ → σ) (msg : μ) (s : σ) : NlAction × σ := (.skip, f msg s)

end Receive

/-- The value returned and the messages that reached the valid callback, in order:
the exchange run with a callback that only takes notes. -/
def transcript {μ : Type} (x : NlExchange μ) : Option (Int × List μ) :=
  sendAndRecv true (skipping (fun msg seen => seen ++ [msg])) x []

section Transcript

variable {μ σ τ : Type} (f : μ → σ → σ) (f' : μ → τ → τ) (g : σ → τ)

theorem nlRecvmsgs_map (hg : ∀ msg s, g (f msg s) = f' msg (g s)) (evs : List (NlEvent μ))
    (err : Int) (s : σ) :
    nlRecvmsgs (skipping f') evs err (g s) =
      ((nlRecvmsgs (skipping f) evs err s).1, g (nlRecvmsgs (skipping f) evs err s).2) := by
  induction evs generalizing err s with
  | nil => rfl
  | cons ev rest ih =>
    cases ev with
    | valid msg =>
      simp only [nlRecvmsgs, dispatch, skipping]
      rw [← hg]
      exact ih err (f msg s)
    | done status => exact ih 0 s
    | nlmsgerr code =>
      by_cases hc : code = 0
      · simp [nlRecvmsgs, dispatch, hc, ackCb]
      · simp [nlRecvmsgs, dispatch, hc, errorCb]

theorem recvLoop_map (hg : ∀ msg s, g (f msg s) = f' msg (g s)) (rs : List (NlRecv μ))
    (err : Int) (s : σ) :
    recvLoop (skipping f') rs err (g s) =
      (recvLoop (skipping f) rs err s).map (fun p => (p.1, g p.2)) := by
  induction rs generalizing err s with
  | nil =>
    simp only [recvLoop]
    by_cases he : 0 < err <;> simp [he]
  | cons r rest ih =>
    simp only [recvLoop, nlRecvmsgs_map f f' g hg]
    by_cases he : 0 < err
    · by_cases hr : r.res = -nleDumpIntr
      · simp only [he, hr, if_true]
        exact ih _ _
      · simp only [he, hr, if_true, if_false]
        exact ih _ _
    · simp [he]

/-- The state after an exchange is the callback folded over the messages that
reached it. -/
theorem sendAndRecv_skipping (x : NlExchange μ) (s : σ) :
    sendAndRecv true (skipping f) x s =
      (transcript x).map (fun p => (p.1, p.2.foldl (fun s msg => f msg s) s)) := by
  have hg : ∀ (msg : μ) (seen : List μ),
      (seen ++ [msg]).foldl (fun s msg => f msg s) s
        = f msg (seen.foldl (fun s msg => f msg s) s) := by
    intro msg seen
    rw [List.foldl_append, List.foldl_cons, List.foldl_nil]
  have hloop := recvLoop_map (fun msg seen => seen ++ [msg]) f
    (fun seen => seen.foldl (fun s msg => f msg s) s) hg x.recvs 1 []
  simp only [transcript, sendAndRecv]
  by_cases hcb : x.cbAlloc = false
  · simp [hcb]
  · by_cases hsend : x.send < 0
    · simp [hcb, hsend]
    · simpa [hcb, hsend] using hloop

end Transcript

end WlanLibnl
end Wlinkd
end LinuxLab
