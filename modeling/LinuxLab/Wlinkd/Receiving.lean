import LinuxLab.Wlinkd.Completion

/-!
# When a request stops receiving

`wlan_libnl_send_and_recv` over an endless sequence of receives.  It returns when finitely
many of them are enough for it, and it looks at the result variable only, which the callbacks
and the flag -NLE_DUMP_INTR write.  Any other failure of `nl_recvmsgs` is logged and leaves
the variable alone.
-/

namespace LinuxLab
namespace Wlinkd

open WlanLibnl

section Receiving

variable {μ σ : Type}

/-- The exchange that meets the first `n` receives of a sequence. -/
def exchangeOf (cbAlloc : Bool) (send : Int) (rs : Nat → NlRecv μ) (n : Nat) : NlExchange μ :=
  ⟨cbAlloc, send, (List.range n).map rs⟩

/-- The function returns after finitely many receives.  When the last of them is flagged or
brought no closing message, it has stopped for what `nl_recvmsgs` returned, and the value is
negative. -/
def Ends (f : μ → σ → σ) (reqSock cbAlloc : Bool) (send : Int) (rs : Nat → NlRecv μ) (s : σ) :
    Prop :=
  ∃ n err s', sendAndRecv reqSock (skipping f) (exchangeOf cbAlloc send rs n) s = some (err, s') ∧
    ∀ r, (exchangeOf cbAlloc send rs n).lastRecv = some r →
      (r.res = -nleDumpIntr ∨ batchEnding r.events = none) → err < 0

variable (f : μ → σ → σ)

theorem sendAndRecv_sent {x : NlExchange μ} (h : x.Sent) (s : σ) :
    sendAndRecv true (skipping f) x s = recvLoop (skipping f) x.recvs 1 s := by
  have hsend := h.2
  rw [sendAndRecv, if_neg (by decide), if_neg (by rw [h.1]; decide), if_neg (by omega)]

theorem result_nonpos_of_final {r : NlRecv μ} (h : r.final = true) (err : Int) :
    (r.ending.map Ending.result).getD err ≤ 0 := by
  rw [NlRecv.final] at h
  cases hend : r.ending with
  | none =>
    rw [hend] at h
    cases h
  | some e =>
    rw [hend] at h
    exact of_decide_eq_true h

/-- A final receive among those that are met ends the loop. -/
theorem recvLoop_returns {rs : List (NlRecv μ)} (h : ∃ r ∈ rs, r.final = true) {err : Int}
    (herr : 0 < err) (s : σ) : ∃ err' s', recvLoop (skipping f) rs err s = some (err', s') := by
  induction rs generalizing err s with
  | nil =>
    obtain ⟨r, hr, -⟩ := h
    cases hr
  | cons r rest ih =>
    rw [recvLoop_cons f herr]
    by_cases hgo : 0 < (r.ending.map Ending.result).getD err
    · obtain ⟨r', hr', hfinal⟩ := h
      rcases List.mem_cons.mp hr' with rfl | hr'
      · exact absurd (result_nonpos_of_final hfinal err) (by omega)
      · exact ih ⟨r', hr', hfinal⟩ hgo _
    · exact ⟨_, _, recvLoop_of_nonpos f (by omega)⟩

/-- The loop waits on when no receive is final. -/
theorem recvLoop_waits {rs : List (NlRecv μ)} (h : ∀ r ∈ rs, r.final = false) {err : Int}
    (herr : 0 < err) (s : σ) : recvLoop (skipping f) rs err s = none := by
  cases hrun : recvLoop (skipping f) rs err s with
  | none => rfl
  | some p =>
    obtain ⟨r, -, hfind, -⟩ := recvLoop_result f herr hrun
    have hfinal := List.find?_some hfind
    rw [h r (List.mem_of_find?_eq_some hfind)] at hfinal
    cases hfinal

/-- A receive that stops the loop without a closing message was flagged. -/
theorem result_neg_of_failed {r : NlRecv μ} {e : Ending} (hend : r.ending = some e)
    (h : r.res = -nleDumpIntr ∨ batchEnding r.events = none) : e.result < 0 := by
  by_cases hflag : r.res = -nleDumpIntr
  · rw [NlRecv.ending, if_pos hflag, Option.some.injEq] at hend
    rw [← hend]
    decide
  · rw [ending_of_not_flagged hflag, h.resolve_left hflag] at hend
    cases hend

theorem ends_of_final {cbAlloc : Bool} {send : Int} {rs : Nat → NlRecv μ} {i : Nat}
    (hfinal : (rs i).final = true) (hcb : cbAlloc = true) (hsend : 0 ≤ send) (s : σ) :
    Ends f true cbAlloc send rs s := by
  have hmem : rs i ∈ (List.range (i + 1)).map rs :=
    List.mem_map_of_mem (List.mem_range.mpr (Nat.lt_add_one i))
  obtain ⟨err, s', hrun⟩ := recvLoop_returns f ⟨rs i, hmem, hfinal⟩ Int.zero_lt_one s
  refine ⟨i + 1, err, s', (sendAndRecv_sent f ⟨hcb, hsend⟩ s).trans hrun, fun r hlast hfailed => ?_⟩
  obtain ⟨r', e, hfind, hend, -, rfl⟩ := recvLoop_result f (by decide) hrun
  cases hlast.symm.trans hfind
  exact result_neg_of_failed hend hfailed

theorem final_of_ends {cbAlloc : Bool} {send : Int} {rs : Nat → NlRecv μ} {s : σ}
    (h : Ends f true cbAlloc send rs s) (hcb : cbAlloc = true) (hsend : 0 ≤ send) :
    ∃ i, (rs i).final = true := by
  obtain ⟨n, err, s', hrun, -⟩ := h
  rw [sendAndRecv_sent f ⟨hcb, hsend⟩] at hrun
  obtain ⟨r, -, hfind, -⟩ := recvLoop_result f (by decide) hrun
  obtain ⟨i, -, rfl⟩ := List.mem_map.mp (List.mem_of_find?_eq_some hfind)
  exact ⟨i, List.find?_some hfind⟩

/-- A request that is not sent returns at once. -/
theorem ends_of_not_sent {reqSock cbAlloc : Bool} {send : Int}
    (h : ¬(reqSock = true ∧ cbAlloc = true ∧ 0 ≤ send)) (rs : Nat → NlRecv μ) (s : σ) :
    Ends f reqSock cbAlloc send rs s := by
  obtain ⟨err, s', hrun⟩ : ∃ err s', sendAndRecv reqSock (skipping f)
      (exchangeOf cbAlloc send rs 0) s = some (err, s') := by
    rw [sendAndRecv]
    by_cases hsock : reqSock = false
    · exact ⟨_, _, if_pos hsock⟩
    rw [if_neg hsock]
    by_cases hcb : cbAlloc = false
    · exact ⟨_, _, if_pos hcb⟩
    rw [if_neg (show ¬(exchangeOf cbAlloc send rs 0).cbAlloc = false from hcb)]
    have hsend : send < 0 := by
      by_contra hsend
      exact h ⟨Bool.ne_false_iff.mp hsock, Bool.ne_false_iff.mp hcb, by omega⟩
    exact ⟨_, _, if_pos hsend⟩
  refine ⟨0, err, s', hrun, fun r hlast => ?_⟩
  have hnone : (exchangeOf cbAlloc send rs 0).lastRecv = none := rfl
  rw [hnone] at hlast
  cases hlast

/-- A request that was sent stops receiving exactly when some receive is flagged or its last
closing message is the end of a dump, an acknowledgement or an error code that is not
positive. -/
theorem receiving_ends_iff (reqSock cbAlloc : Bool) (send : Int) (rs : Nat → NlRecv μ) (s : σ) :
    Ends f reqSock cbAlloc send rs s ↔
      (reqSock = true ∧ cbAlloc = true ∧ 0 ≤ send → ∃ i, (rs i).final = true) := by
  by_cases hsent : reqSock = true ∧ cbAlloc = true ∧ 0 ≤ send
  · obtain ⟨rfl, hcb, hsend⟩ := hsent
    constructor
    · intro h _
      exact final_of_ends f h hcb hsend
    · intro h
      obtain ⟨i, hfinal⟩ := h ⟨rfl, hcb, hsend⟩
      exact ends_of_final f hfinal hcb hsend s
  · exact iff_of_true (ends_of_not_sent f hsent rs s) (fun h => absurd h hsent)

end Receiving

/-- A socket that fails with -5 every time, and never brings a message. -/
def failing (_ : Nat) : NlRecv Unit := ⟨[], -5⟩

theorem receiving_never_ends :
    (failing 0).res < 0 ∧ (∀ n (s : Unit), sendAndRecv true (skipping (fun _ s => s))
      (exchangeOf true 0 failing n) s = none) ∧ ¬Ends (fun _ s => s) true true 0 failing () := by
  have hwaits : ∀ n (s : Unit), sendAndRecv true (skipping (fun _ s => s))
      (exchangeOf true 0 failing n) s = none := by
    intro n s
    rw [sendAndRecv_sent _ ⟨rfl, Int.le_refl 0⟩]
    refine recvLoop_waits _ (fun r hr => ?_) (by decide) s
    obtain ⟨i, -, rfl⟩ := List.mem_map.mp hr
    rfl
  refine ⟨by decide, hwaits, ?_⟩
  rintro ⟨n, err, s', hrun, -⟩
  cases (hwaits n ()).symm.trans hrun

end Wlinkd
end LinuxLab
