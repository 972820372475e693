import Mathlib.Data.List.TakeWhile
import LinuxLab.Wlinkd.Refresh

/-!
# When a request counts as done

What ended an exchange is read off the receives alone, without the result variable:
`batchEnding` is the last message of a batch that closes the exchange, and the
first receive that closes it for good is the last one performed.  The value that
`wlan_libnl_send_and_recv` returns is compared with that.  It says the same, except
that the end of a dump counts as success whatever status the kernel put into it.
-/

namespace LinuxLab
namespace Wlinkd

open Relation Lib WlanUtils WlanLibnl WlanNl80211

/-- What can end an exchange. -/
inductive Ending where
  | ack
  | error (code : Int)
  | done (status : Int)
  | interrupted
deriving DecidableEq, Repr

def Ending.result : Ending → Int
  | .ack => 0
  | .error code => code
  | .done _ => 0
  | .interrupted => -eAgain

/-- The last closing message of a batch, among those that libnl hands over: nothing
follows an acknowledgement or an error. -/
def batchEnding {μ : Type} : List (NlEvent μ) → Option Ending
  | [] => none
  | .valid _ :: rest => batchEnding rest
  | .done status :: rest => (batchEnding rest).or (some (.done status))
  | .nlmsgerr code :: _ => some (if code = 0 then .ack else .error code)

/-- What a receive brings: a flag, or the closing message of its batch. -/
def NlRecv.ending {μ : Type} (r : NlRecv μ) : Option Ending :=
  if r.res = -nleDumpIntr then some .interrupted else batchEnding r.events

/-- No further receive follows.  Only a positive error code, which the kernel does
not send, would let the exchange go on. -/
def NlRecv.final {μ : Type} (r : NlRecv μ) : Bool := r.ending.any (fun e => e.result ≤ 0)

namespace NlExchange

variable {μ : Type}

def Sent (x : NlExchange μ) : Prop := x.cbAlloc = true ∧ 0 ≤ x.send

def lastRecv (x : NlExchange μ) : Option (NlRecv μ) := x.recvs.find? NlRecv.final

/-- The receives up to the one that ends the exchange. -/
def performed (x : NlExchange μ) : List (NlRecv μ) :=
  x.recvs.takeWhile (fun r => !r.final) ++ x.lastRecv.toList

/-- The kernel has done what it was asked: the exchange ended with an acknowledgement
or with a dump of status zero, and no receive was flagged. -/
def Completed (x : NlExchange μ) : Prop :=
  (∃ r, x.lastRecv = some r ∧
    (batchEnding r.events = some .ack ∨ batchEnding r.events = some (.done 0))) ∧
  ∀ r ∈ x.performed, r.res ≠ -nleDumpIntr

/-- The request was sent and ended, in a receive without a flag, with a dump that the
kernel gave up. -/
def Aborted (x : NlExchange μ) : Prop :=
  x.Sent ∧ ∃ r status, x.lastRecv = some r ∧ r.res ≠ -nleDumpIntr ∧
    batchEnding r.events = some (.done status) ∧ status ≠ 0

end NlExchange

section Result

variable {μ σ : Type} (f : μ → σ → σ)

theorem nlRecvmsgs_result (evs : List (NlEvent μ)) (err : Int) (s : σ) :
    (nlRecvmsgs (skipping f) evs err s).1 = ((batchEnding evs).map Ending.result).getD err := by
  induction evs generalizing err s with
  | nil => rfl
  | cons ev rest ih =>
    cases ev with
    | valid msg =>
      simp only [nlRecvmsgs, dispatch, skipping, batchEnding]
      exact ih err (f msg s)
    | done status =>
      simp only [nlRecvmsgs, dispatch, finishCb, batchEnding]
      rw [ih 0 s]
      cases batchEnding rest <;> rfl
    | nlmsgerr code =>
      by_cases hc : code = 0
      · simp [nlRecvmsgs, dispatch, hc, ackCb, batchEnding, Ending.result]
      · simp [nlRecvmsgs, dispatch, hc, errorCb, batchEnding, Ending.result]

theorem final_of_ending {r : NlRecv μ} {e : Ending} (h : r.ending = some e) :
    r.final = decide (e.result ≤ 0) := by
  rw [NlRecv.final, h, Option.any_some]

theorem final_of_flagged {r : NlRecv μ} (h : r.res = -nleDumpIntr) : r.final = true := by
  have hend : r.ending = some .interrupted := by rw [NlRecv.ending, if_pos h]
  rw [final_of_ending hend]
  decide

theorem ending_of_not_flagged {r : NlRecv μ} (h : r.res ≠ -nleDumpIntr) :
    r.ending = batchEnding r.events := by
  rw [NlRecv.ending, if_neg h]

theorem recvLoop_of_nonpos {rs : List (NlRecv μ)} {err : Int} {s : σ} (herr : err ≤ 0) :
    recvLoop (skipping f) rs err s = some (err, s) := by
  cases rs with
  | nil => rw [recvLoop, if_neg (by omega)]
  | cons r rest => rw [recvLoop, if_neg (by omega)]

theorem recvLoop_cons {r : NlRecv μ} {rest : List (NlRecv μ)} {err : Int} {s : σ}
    (herr : 0 < err) :
    recvLoop (skipping f) (r :: rest) err s =
      recvLoop (skipping f) rest ((r.ending.map Ending.result).getD err)
        (nlRecvmsgs (skipping f) r.events err s).2 := by
  rw [recvLoop, if_pos herr, NlRecv.ending]
  dsimp only
  by_cases hflag : r.res = -nleDumpIntr
  · rw [if_pos hflag, if_pos hflag]
    rfl
  · rw [if_neg hflag, if_neg hflag, nlRecvmsgs_result]

/-- The loop stops at the first receive that is final, with the result of its
ending.  The induction is on the receives, with any positive value in the result
variable. -/
theorem recvLoop_result {rs : List (NlRecv μ)} {err err' : Int} {s s' : σ} (herr : 0 < err)
    (h : recvLoop (skipping f) rs err s = some (err', s')) :
    ∃ r e, rs.find? NlRecv.final = some r ∧ r.ending = some e ∧ e.result ≤ 0 ∧
      err' = e.result := by
  induction rs generalizing err s with
  | nil => simp [recvLoop, herr] at h
  | cons r rest ih =>
    rw [recvLoop_cons f herr] at h
    cases hend : r.ending with
    | none =>
      have hgo : ¬r.final = true := by simp [NlRecv.final, hend]
      rw [List.find?_cons_of_neg hgo]
      rw [hend] at h
      exact ih herr h
    | some e =>
      rw [hend, Option.map_some, Option.getD_some] at h
      by_cases hle : e.result ≤ 0
      · rw [recvLoop_of_nonpos f hle, Option.some.injEq, Prod.mk.injEq] at h
        have hstop : r.final = true := by rw [final_of_ending hend, decide_eq_true hle]
        exact ⟨r, e, List.find?_cons_of_pos hstop, hend, hle, h.1.symm⟩
      · have hgo : ¬r.final = true := by
          rw [final_of_ending hend]
          simpa using hle
        rw [List.find?_cons_of_neg hgo]
        exact ih (by omega) h

/-- A value that is not negative is zero, and it comes from an exchange that was sent
and ended. -/
theorem sendAndRecv_result {reqSock : Bool} {x : NlExchange μ} {err : Int} {s s' : σ}
    (h : sendAndRecv reqSock (skipping f) x s = some (err, s')) (herr : 0 ≤ err) :
    err = 0 ∧ reqSock = true ∧ x.Sent ∧
      ∃ r e, x.lastRecv = some r ∧ r.ending = some e ∧ e.result = 0 := by
  rw [sendAndRecv] at h
  by_cases hsock : reqSock = false
  · rw [if_pos hsock, Option.some.injEq, Prod.mk.injEq] at h
    omega
  by_cases hcb : x.cbAlloc = false
  · rw [if_neg hsock, if_pos hcb, Option.some.injEq, Prod.mk.injEq, eNoMem] at h
    omega
  by_cases hsend : x.send < 0
  · rw [if_neg hsock, if_neg hcb, if_pos hsend, Option.some.injEq, Prod.mk.injEq, eBadF] at h
    omega
  rw [if_neg hsock, if_neg hcb, if_neg hsend] at h
  obtain ⟨r, e, hfind, hend, hle, rfl⟩ := recvLoop_result f (by decide) h
  have hzero : e.result = 0 := by omega
  exact ⟨hzero, by simpa using hsock, ⟨by simpa using hcb, by omega⟩, r, e, hfind, hend, hzero⟩

theorem sendAndRecv_of_ending {x : NlExchange μ} {err : Int} {s s' : σ} {r : NlRecv μ} {e : Ending}
    (h : sendAndRecv true (skipping f) x s = some (err, s')) (hsent : x.Sent)
    (hlast : x.lastRecv = some r) (hend : r.ending = some e) : err = e.result := by
  rw [sendAndRecv, if_neg (by simp), if_neg (by simp [hsent.1]), if_neg (by have := hsent.2; omega)]
    at h
  obtain ⟨r', e', hfind, hend', -, rfl⟩ := recvLoop_result f (by decide) h
  obtain rfl : r = r' := Option.some.inj (hlast.symm.trans hfind)
  rw [Option.some.inj (hend.symm.trans hend')]

theorem batchEnding_error {evs : List (NlEvent μ)} {code : Int}
    (h : batchEnding evs = some (.error code)) : code ≠ 0 := by
  induction evs with
  | nil => simp [batchEnding] at h
  | cons ev rest ih =>
    cases ev with
    | valid msg => exact ih h
    | done status =>
      rw [batchEnding] at h
      cases hrest : batchEnding rest with
      | none => simp [hrest] at h
      | some e =>
        rw [hrest, Option.some_or] at h
        exact ih (hrest.trans h)
    | nlmsgerr c =>
      rw [batchEnding, Option.some.injEq] at h
      by_cases hc : c = 0
      · rw [if_pos hc] at h
        cases h
      · rw [if_neg hc, Ending.error.injEq] at h
        rwa [← h]

theorem not_flagged_of_performed {x : NlExchange μ} {r : NlRecv μ} (hlast : x.lastRecv = some r)
    (hr : r.res ≠ -nleDumpIntr) : ∀ r' ∈ x.performed, r'.res ≠ -nleDumpIntr := by
  intro r' hr' hflag
  rw [NlExchange.performed, hlast, List.mem_append, Option.toList_some, List.mem_singleton] at hr'
  rcases hr' with hearlier | rfl
  · have := List.mem_takeWhile_imp hearlier
    rw [final_of_flagged hflag] at this
    exact absurd this (by decide)
  · exact hr hflag

theorem completed_of_success {reqSock : Bool} {x : NlExchange μ} {err : Int} {s s' : σ}
    (h : sendAndRecv reqSock (skipping f) x s = some (err, s')) (herr : 0 ≤ err)
    (habort : ¬(reqSock = true ∧ x.Aborted)) : x.Completed := by
  obtain ⟨-, hsock, hsent, r, e, hlast, hend, hzero⟩ := sendAndRecv_result f h herr
  have hflag : r.res ≠ -nleDumpIntr := by
    intro hflag
    rw [NlRecv.ending, if_pos hflag, Option.some.injEq] at hend
    rw [← hend] at hzero
    exact absurd hzero (by decide)
  have hbatch : batchEnding r.events = some e := by rwa [← ending_of_not_flagged hflag]
  refine ⟨⟨r, hlast, ?_⟩, not_flagged_of_performed hlast hflag⟩
  cases e with
  | ack => exact .inl hbatch
  | error code => exact absurd hzero (batchEnding_error hbatch)
  | done status =>
    by_cases hstatus : status = 0
    · exact .inr (hstatus ▸ hbatch)
    · exact absurd ⟨hsock, hsent, r, status, hlast, hflag, hbatch, hstatus⟩ habort
  | interrupted => exact absurd hzero (by decide)

theorem success_of_aborted {x : NlExchange μ} {err : Int} {s s' : σ}
    (h : sendAndRecv true (skipping f) x s = some (err, s')) (habort : x.Aborted) :
    err = 0 ∧ ¬x.Completed := by
  obtain ⟨hsent, r, status, hlast, hflag, hend, hstatus⟩ := habort
  refine ⟨sendAndRecv_of_ending f h hsent hlast ((ending_of_not_flagged hflag).trans hend), ?_⟩
  rintro ⟨⟨r', hlast', hgood⟩, -⟩
  obtain rfl : r = r' := Option.some.inj (hlast.symm.trans hlast')
  rw [hend] at hgood
  rcases hgood with hgood | hgood
  · cases hgood
  · exact hstatus (Ending.done.inj (Option.some.inj hgood))

end Result

/-! ## What a refresh concludes from it -/

def StaRequested (r : RefreshInput) (d : Daemon) : Prop :=
  ∃ err d₁, getInterface r (resetApInfo r.ifaddrs d) = some (err, d₁) ∧ 0 ≤ err ∧
    d₁.isApMode = true ∧ r.staAlloc = true

theorem mem_bssids_of_keeps {m m' : StaMgr} (h : Keeps m m') {b : CString} (hb : b ∈ m.bssids) :
    b ∈ m'.bssids := by
  obtain ⟨st, hst⟩ := WlanStaMgr.exists_find hb
  obtain ⟨st', hst', -⟩ := h.1 b st hst
  exact WlanStaMgr.mem_bssids_of_find hst'

/-- Only a refresh that was told that its requests succeeded loses a station. -/
theorem requests_succeeded_of_lost {r : RefreshInput} {d d' : Daemon}
    (hk : KernelReplies r.ifExchange) (h : refresh r d = some d') {b : CString}
    (hb : b ∈ d.mgr.bssids) (hlost : b ∉ d'.mgr.bssids) :
    ∃ err d₁, getInterface r (resetApInfo r.ifaddrs d) = some (err, d₁) ∧ 0 ≤ err ∧
      (d₁.isApMode = false ∨
        ∃ err₂ d₂ bssids, getStation r d₁ = some (err₂, d₂, bssids) ∧ 0 ≤ err₂) := by
  have hkept : ¬ReflTransGen Grow d.mgr d'.mgr :=
    fun hgrow => hlost (mem_bssids_of_keeps (keeps_grows hgrow) hb)
  cases refreshed_of_refresh h with
  | idle => exact absurd .refl hkept
  | noIfMsg => exact absurd .refl hkept
  | ifFailed hlive _ hif _ =>
    rw [getInterface_quiet hlive hk hif] at hkept
    exact absurd .refl hkept
  | notAp _ _ hif herr hmode => exact ⟨_, _, hif, herr, .inl hmode⟩
  | noStaMsg hlive _ hif _ _ _ =>
    rw [getInterface_quiet hlive hk hif] at hkept
    exact absurd .refl hkept
  | staFailed hlive _ hif _ _ _ hsta _ => exact absurd (requests_grow hlive hk hif hsta) hkept
  | dumped _ _ hif herr _ _ hsta herr₂ => exact ⟨_, _, hif, herr, .inr ⟨_, _, _, hsta, herr₂⟩⟩

/-- `wlan_libnl_send_and_recv` returns zero only for an exchange that the kernel
completed, exactly if the exchange did not end with a dump that the kernel gave up.
So a refresh with no such exchange loses a station only if the kernel completed
every request that the refresh made. -/
theorem success_completed_iff_not_aborted (r : RefreshInput) (d d' : Daemon) :
    (∀ {μ σ : Type} (f : μ → σ → σ) (reqSock : Bool) (x : NlExchange μ) (s s' : σ) (err : Int),
      sendAndRecv reqSock (skipping f) x s = some (err, s') →
        ((err = 0 → x.Completed) ↔ ¬(reqSock = true ∧ x.Aborted))) ∧
    (KernelReplies r.ifExchange → ¬r.ifExchange.Aborted → ¬r.staExchange.Aborted →
      refresh r d = some d' → (∃ b ∈ d.mgr.bssids, b ∉ d'.mgr.bssids) →
        r.ifExchange.Completed ∧ (StaRequested r d → r.staExchange.Completed)) := by
  constructor
  · intro μ σ f reqSock x s s' err h
    constructor
    · rintro hcomplete ⟨rfl, habort⟩
      obtain ⟨herr, hnot⟩ := success_of_aborted f h habort
      exact hnot (hcomplete herr)
    · rintro habort rfl
      exact completed_of_success f h (Int.le_refl 0) habort
  · rintro hk hif hsta h ⟨b, hb, hlost⟩
    obtain ⟨err, d₁, hrun, herr, hrest⟩ := requests_succeeded_of_lost hk h hb hlost
    refine ⟨completed_of_success _ hrun herr (fun h => hif h.2), ?_⟩
    rintro ⟨err', d₁', hrun', -, hmode, -⟩
    obtain ⟨-, rfl⟩ := Prod.mk.inj (Option.some.inj (hrun.symm.trans hrun'))
    rcases hrest with hmode' | ⟨err₂, d₂, bssids, hsrun, herr₂⟩
    · exact absurd (hmode.symm.trans hmode') (by decide)
    · exact completed_of_success _ hsrun herr₂ (fun h => hsta h.2)

theorem batchEnding_valid_done {μ : Type} (msgs : List μ) (status : Int) :
    batchEnding (msgs.map .valid ++ [.done status]) = some (.done status) := by
  induction msgs with
  | nil => rfl
  | cons msg msgs ih => exact ih

theorem lastRecv_dumpExchange (msgs : List (Env × NlMsg)) (status : Int) :
    (dumpExchange msgs status).lastRecv =
      some { events := msgs.map .valid ++ [.done status], res := 0 } := by
  refine List.find?_cons_of_pos ?_
  rw [final_of_ending (e := .done status)]
  · exact decide_eq_true (Int.le_refl 0)
  · rw [ending_of_not_flagged (by simp [nleDumpIntr]), batchEnding_valid_done]

theorem aborted_dumpExchange {msgs : List (Env × NlMsg)} {status : Int} :
    (dumpExchange msgs status).Aborted ↔ status ≠ 0 := by
  constructor
  · rintro ⟨-, r, st, hlast, -, hend, hst⟩
    rw [lastRecv_dumpExchange, Option.some.injEq] at hlast
    rw [← hlast, batchEnding_valid_done, Option.some.injEq, Ending.done.injEq] at hend
    rwa [hend]
  · intro hstatus
    exact ⟨⟨rfl, Int.le_refl 0⟩, _, status, lastRecv_dumpExchange msgs status,
      by simp [nleDumpIntr], batchEnding_valid_done msgs status, hstatus⟩

/-- An empty dump of status zero takes the tracked station out. -/
theorem success_completed_emptyDump :
    ∃ d', refresh (apRefresh 3 [] 0) serving = some d' ∧ d'.mgr.head = [] ∧
      (apRefresh 3 [] 0).ifExchange.Completed ∧ (apRefresh 3 [] 0).staExchange.Completed := by
  obtain ⟨d', hrun⟩ : ∃ d', refresh (apRefresh 3 [] 0) serving = some d' := ⟨_, rfl⟩
  have hempty : d'.mgr.head = [] := by
    obtain rfl := Option.some.inj hrun
    rfl
  have hdone := (success_completed_iff_not_aborted (apRefresh 3 [] 0) serving d').2
    (kernelReplies_apRefresh 3 [] 0)
    (fun h => aborted_dumpExchange.mp h rfl) (fun h => aborted_dumpExchange.mp h rfl) hrun
    ⟨bssidText (localMac 1), by simp [serving, StaMgr.bssids, WlanStaMgr.newStation],
      by simp [StaMgr.bssids, hempty]⟩
  exact ⟨d', hrun, hempty, hdone.1, hdone.2 ⟨0, _, rfl, Int.le_refl 0, rfl, rfl⟩⟩

/-- A dump that the kernel gives up with status -5 is reported as a success, and the
refresh takes the tracked station out and announces that it left. -/
theorem aborted_dump_removes_station :
    ∃ d', refresh (apRefresh 3 [] (-5)) serving = some d' ∧
      transcript (apRefresh 3 [] (-5)).staExchange = some (0, []) ∧
      ¬(apRefresh 3 [] (-5)).staExchange.Completed ∧
      serving.mgr.head = [WlanStaMgr.newStation (localMac 1) 7] ∧ d'.mgr.head = [] ∧
      .tcpPush .staLeave (bssidText (localMac 1)) ∈ d'.mgr.out := by
  have hsuccess : transcript (apRefresh 3 [] (-5)).staExchange = some (0, []) :=
    transcript_dumpExchange [] (-5)
  refine ⟨_, rfl, hsuccess, ?_, rfl, rfl, List.mem_cons_self⟩
  exact (success_of_aborted _ hsuccess (aborted_dumpExchange.mpr (by decide))).2

end Wlinkd
end LinuxLab
