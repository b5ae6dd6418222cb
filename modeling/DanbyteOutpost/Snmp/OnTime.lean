import DanbyteOutpost.Coop.Replay
import DanbyteOutpost.Snmp.MacOrigin

/-!
# Complete reads and the clock

A read notices in three places that its time is up: before a request, which truncates it; before a
lookup walk, which is then left out; and at the gate of a VLAN's context, which is then skipped.
Only the first is a problem of the read. So a read that says it is complete is the one there would
have been with time to spare, if the clock was never late in the other two places.

## The proof

A run is determined by the readings and the answers in its log (`Env.Replays`). A read that says
it is complete was never late before a request, since that would have truncated it; if it was not
late in the other two places either, then all readings in its log are those of a clock with time
to spare, which therefore takes the read through the same log (`run_of_replays`). What differs is
the time in the report (`MacMeta.SameButTime`).

`complete_read_gap` is a read that leaves a lookup out and says it is complete all the same.
-/

namespace Snmp

open Coop

/-- What a read reports is the same, its duration aside. -/
def MacMeta.SameButTime (report report' : MacMeta) : Prop :=
  report' = { report with elapsedMs := report'.elapsedMs }

/-- When a read started and ended shows in `elapsed_ms` alone. -/
theorem finish_sameButTime (s : ReadState) (rows : List Row) (started now started' now' : ℚ) :
    (s.finish rows started' now').1 = (s.finish rows started now).1 ∧
      (s.finish rows started now).2.SameButTime (s.finish rows started' now').2 :=
  ⟨rfl, rfl⟩

namespace MacRead

variable {rd : MacRead} {sur sur' : Surroundings} {fuel : ℕ} {s : ReadState} {rows : List Row}
  {report : MacMeta} {log : Log (net Outcome)}

/-- The surroundings of a read replay its log. -/
theorem replays_of_run (h : rd.run sur fuel s = some ((rows, report), log)) :
    sur.env.Replays log := by
  obtain ⟨⟨plan, s₁, log₁⟩, hread, hrest⟩ := Option.bind_eq_some_iff.1 h
  have hempty : sur.env.Replays [] := trivial
  have hlog₁ : sur.env.Replays log₁ := Res.replays_of_run hempty hread
  cases plan with
  | rows rows₁ => exact (Prod.mk.inj (Option.some.inj hrest)).2 ▸ hlog₁
  | raised error => exact (Prod.mk.inj (Option.some.inj hrest)).2 ▸ hlog₁
  | contexts rows₁ advertised vlans =>
    obtain ⟨⟨s₂, log₂⟩, hgather, hrest⟩ := Option.bind_eq_some_iff.1 hrest
    exact (Prod.mk.inj (Option.some.inj hrest)).2 ▸ replays_of_gather hlog₁ hgather

/-- The end of a read by another clock. -/
theorem finish_of_clock {rows₁ : List Row} {started now : ℚ} (started' now' : ℚ)
    (h : s.finish rows₁ started now = (rows, report)) :
    ∃ report', s.finish rows₁ started' now' = (rows, report') ∧ report.SameButTime report' := by
  obtain ⟨hrows, hreport⟩ := finish_sameButTime s rows₁ started now started' now'
  rw [h] at hrows hreport
  exact ⟨(s.finish rows₁ started' now').2, Prod.ext hrows rfl, hreport⟩

/-- Surroundings that replay the log of a read have the same read, its duration aside. -/
theorem run_of_replays (hpick : sur'.pick = sur.pick)
    (h : rd.run sur fuel s = some ((rows, report), log)) (hreplays : sur'.env.Replays log) :
    ∃ report', rd.run sur' fuel s = some ((rows, report'), log) ∧ report.SameButTime report' := by
  obtain ⟨⟨plan, s₁, log₁⟩, hread, hrest⟩ := Option.bind_eq_some_iff.1 h
  have hread' : log₁ <:+ log →
      (rd.read fuel).run sur'.env s [] = some (plan, s₁, log₁) :=
    fun hlog ↦ Res.run_of_replays hread (hreplays.suffix hlog)
  cases plan with
  | rows rows₁ =>
    obtain ⟨hout, rfl⟩ := Prod.mk.inj (Option.some.inj hrest)
    obtain ⟨report', hout', hsame⟩ := finish_of_clock (sur'.clock []) (sur'.clock log₁) hout
    refine ⟨report', Option.bind_eq_some_iff.2 ⟨_, hread' (List.suffix_refl _), ?_⟩, hsame⟩
    exact congrArg (fun out ↦ some (out, log₁)) hout'
  | raised error =>
    obtain ⟨hout, rfl⟩ := Prod.mk.inj (Option.some.inj hrest)
    obtain ⟨report', hout', hsame⟩ := finish_of_clock (sur'.clock []) (sur'.clock log₁) hout
    refine ⟨report', Option.bind_eq_some_iff.2 ⟨_, hread' (List.suffix_refl _), ?_⟩, hsame⟩
    exact congrArg (fun out ↦ some (out, log₁)) hout'
  | contexts rows₁ advertised vlans =>
    obtain ⟨⟨s₂, log₂⟩, hgather, hrest⟩ := Option.bind_eq_some_iff.1 hrest
    obtain ⟨hout, rfl⟩ := Prod.mk.inj (Option.some.inj hrest)
    obtain ⟨report', hout', hsame⟩ := finish_of_clock (sur'.clock []) (sur'.clock log₂) hout
    have hpick' : sur'.env.pick = sur.env.pick := hpick
    have hgather' := gather_of_replays hpick' hgather hreplays
    refine ⟨report', Option.bind_eq_some_iff.2 ⟨_, hread' (suffix_of_gather hgather), ?_⟩, hsame⟩
    refine Option.bind_eq_some_iff.2 ⟨_, hgather', ?_⟩
    exact congrArg (fun out ↦ some (out, log₂)) hout'

end MacRead

/-- An agent that answers each request as a function of it alone, unless the time is up. -/
def Surroundings.Fixed (sur : Surroundings) (answer : Query → Reply) : Prop :=
  ∀ log q, sur.reply log q = answer q ∨ sur.reply log q = .timedOut

/-- Surroundings with time to spare: the clock never reaches the deadline, and every request is
answered. -/
structure Surroundings.InTime (sur : Surroundings) (answer : Query → Reply) (deadline : ℚ) :
    Prop where
  /-- There is time left. -/
  clock : ∀ log, sur.clock log < deadline
  /-- The answer to a request does not depend on when it is sent. -/
  reply : ∀ log q, sur.reply log q = answer q

/-- In time, no look finds the deadline passed. -/
theorem Surroundings.InTime.reading {sur : Surroundings} {answer : Query → Reply} {deadline : ℚ}
    (h : sur.InTime answer deadline) (log : Log (net Outcome)) {probe : Probe}
    (hprobe : probe.deadline = deadline) : sur.env.reading log probe = false := by
  refine Surroundings.reading_of_clock ?_
  rw [hprobe]
  exact h.clock log

/-- The clock was never late before a lookup walk or at the gate of a VLAN's context. -/
def LookedUpInTime (log : Log (net Outcome)) : Prop :=
  ∀ check deadline, .polled (⟨check, deadline⟩ : Probe) true ∈ log → check = .request

/-- A read that says it is complete, and did without no lookup and no context for lack of time, is
the read there is with time to spare.

The looks that may come too late are those of `can_walk` and of the gates: they leave a walk or a
context out and say so nowhere. A request that comes too late stops the budget, and the read does
not call itself complete. -/
theorem complete_read_inTime {rd : MacRead} {sur sur' : Surroundings} {fuel : ℕ} {now : ℚ}
    {answer : Query → Reply} (hfixed : sur.Fixed answer) (hpick : sur'.pick = sur.pick)
    (hspare : sur'.InTime answer (now + rd.opts.budgetS)) {rows : List Row} {report : MacMeta}
    {log : Log (net Outcome)} (hrun : rd.run sur fuel (rd.start now) = some ((rows, report), log))
    (hcomplete : report.complete = true) (hlookups : LookedUpInTime log) :
    ∃ report', rd.run sur' fuel (rd.start now) = some ((rows, report'), log) ∧
      report.SameButTime report' := by
  refine MacRead.run_of_replays hpick hrun ?_
  -- the budget's part of the invariant holds whatever the agent answers
  have hanswers : False → sur.Answers fun _ ↦ ⟨[], .nil⟩ := False.elim
  obtain ⟨s, rows', started, now', hfinish, hinv, -⟩ := run_inv hanswers hrun
  have hno : s.budget.truncated = false :=
    (no_problem_of_complete ((congrArg (fun out ↦ out.2.complete) hfinish).symm.trans hcomplete)).1
  have hlog := MacRead.replays_of_run hrun
  refine Env.replays_of_forall (fun p yes before hsuffix ↦ ?_) fun q r before hsuffix ↦ ?_
  · have hmem := hsuffix.subset List.mem_cons_self
    have hintime := hspare.reading before (hinv.budgeted.polled p yes hmem)
    cases yes with
    | false => exact hintime
    | true => exact absurd (hlookups _ _ hmem) (hinv.budgeted.onTime hno p hmem)
  · have hsaid : sur.reply before q = r := (hlog.suffix hsuffix).1
    rcases hfixed before q with hanswer | hlate
    · exact (hspare.reply before q).trans (hanswer.symm.trans hsaid)
    · rw [hlate] at hsaid
      exact absurd (hsaid ▸ hsuffix.subset List.mem_cons_self) (hinv.budgeted.answered hno q)

/-- The deadline passes behind the forwarding table, so ifStackTable is not walked: the read says it
is complete, with the host on the logical unit and not on its port. -/
theorem complete_read_gap :
    let mib : Mib := ⟨[(dot1dBasePortIfindex ++ [1], "10"),
      (dot1dTpFdbPort ++ [0, 17, 34, 51, 68, 85], "1"),
      (dot1dTpFdbStatus ++ [0, 17, 34, 51, 68, 85], "3"), (ifStackStatus ++ [10, 5], "1")],
      by decide⟩
    let answer : Query → Reply := Agent.serve (fun _ ↦ mib)
    let rd : MacRead :=
      { version := .v2c, community := "public", opts := ⟨.off, false, 120, 128, []⟩
        ifaces := ⟨Dict.ofList [("5", ("6", "ethernet")), ("10", ("53", "virtual"))], [], []⟩ }
    let sur : Surroundings :=
      { clock := fun log ↦ if allWalks (fun o ↦ o.columns ≠ dFdbColumns) log then 0 else 120
        reply := fun _ ↦ answer
        pick := fun _ ↦ 0 }
    let sur' : Surroundings := { clock := fun _ ↦ 0, reply := fun _ ↦ answer, pick := fun _ ↦ 0 }
    sur.Fixed answer ∧ sur'.InTime answer (0 + rd.opts.budgetS) ∧
      ∃ rows report log rows' report' log',
        rd.run sur 10 (rd.start 0) = some ((rows, report), log) ∧ report.complete = true ∧
          rd.run sur' 10 (rd.start 0) = some ((rows', report'), log') ∧ rows ≠ rows' := by
  intro mib answer rd sur sur'
  have hrun : (rd.run sur 10 (rd.start 0)).map
      (fun out ↦ (out.1.1.map Row.ifIndex, out.1.2.complete)) = some (["10"], true) := by
    decide +kernel
  have hrun' : (rd.run sur' 10 (rd.start 0)).map (fun out ↦ out.1.1.map Row.ifIndex) =
      some ["5"] := by
    decide +kernel
  obtain ⟨⟨⟨rows, report⟩, log⟩, hout, heq⟩ := Option.map_eq_some_iff.1 hrun
  obtain ⟨⟨⟨rows', report'⟩, log'⟩, hout', heq'⟩ := Option.map_eq_some_iff.1 hrun'
  obtain ⟨hrows, hcomplete⟩ := Prod.mk.inj heq
  refine ⟨fun _ _ ↦ .inl rfl, ⟨fun _ ↦ ?_, fun _ _ ↦ rfl⟩, rows, report, log, rows', report', log',
    hout, hcomplete, hout', ?_⟩
  · show (0 : ℚ) < 0 + (120 : ℤ)
    norm_num
  · rintro rfl
    exact absurd (hrows.symm.trans heq') (by decide)

/-- The deadline passes behind ifStackTable. -/
theorem complete_read_inTime_behind :
    let mib : Mib := ⟨[(dot1dBasePortIfindex ++ [1], "10"),
      (dot1dTpFdbPort ++ [0, 17, 34, 51, 68, 85], "1"),
      (dot1dTpFdbStatus ++ [0, 17, 34, 51, 68, 85], "3"), (ifStackStatus ++ [10, 5], "1")],
      by decide⟩
    let answer : Query → Reply := Agent.serve (fun _ ↦ mib)
    let rd : MacRead :=
      { version := .v2c, community := "public", opts := ⟨.off, false, 120, 128, []⟩
        ifaces := ⟨Dict.ofList [("5", ("6", "ethernet")), ("10", ("53", "virtual"))], [], []⟩ }
    let sur : Surroundings :=
      { clock := fun log ↦ if allWalks (fun o ↦ o.columns ≠ stackColumns) log then 0 else 120
        reply := fun _ ↦ answer
        pick := fun _ ↦ 0 }
    let sur' : Surroundings := { clock := fun _ ↦ 0, reply := fun _ ↦ answer, pick := fun _ ↦ 0 }
    ∃ rows report log report', rows.map Row.ifIndex = ["5"] ∧
      rd.run sur 10 (rd.start 0) = some ((rows, report), log) ∧
        rd.run sur' 10 (rd.start 0) = some ((rows, report'), log) ∧ report.SameButTime report' := by
  intro mib answer rd sur sur'
  have hrun : (rd.run sur 10 (rd.start 0)).map
      (fun out ↦ (out.1.1.map Row.ifIndex, out.1.2.complete)) = some (["5"], true) := by
    decide +kernel
  have hpolls : (rd.run sur 10 (rd.start 0)).map (fun out ↦ out.2.all fun e ↦
      match e with
      | .polled _ yes => !yes
      | _ => true) = some true := by
    decide +kernel
  obtain ⟨⟨⟨rows, report⟩, log⟩, hout, heq⟩ := Option.map_eq_some_iff.1 hrun
  obtain ⟨hrows, hcomplete⟩ := Prod.mk.inj heq
  rw [hout, Option.map_some, Option.some.injEq, List.all_eq_true] at hpolls
  have hspare : sur'.InTime answer (0 + rd.opts.budgetS) := by
    refine ⟨fun _ ↦ ?_, fun _ _ ↦ rfl⟩
    show (0 : ℚ) < 0 + (120 : ℤ)
    norm_num
  have hlookups : LookedUpInTime log :=
    fun check deadline hmem ↦ absurd (hpolls _ hmem) Bool.false_ne_true
  have hfixed : sur.Fixed answer := fun _ _ ↦ .inl rfl
  have hpick : sur'.pick = sur.pick := rfl
  obtain ⟨report', hout', hsame⟩ :=
    complete_read_inTime hfixed hpick hspare hout hcomplete hlookups
  exact ⟨rows, report, log, report', hrows, hout, hout', hsame⟩

end Snmp
