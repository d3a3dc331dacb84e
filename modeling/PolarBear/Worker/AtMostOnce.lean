import PolarBear.Worker.Steps

/-!
# How often one step counts

The waiting side counts `finish_flag` down by one for each step. Since the
success report of the http and docker methods stands inside their own `try`
block, an exception the server raised while recording it is taken for a failure
of the tool and reported again, after the flag already went down.

`atMostOnce_iff` is the exact boundary. The first report must have been sent
and answered in time by an exception with a message `str` accepts; the call then
counts twice if the server handles the second report as well, and has failed a
passed step in any case.
-/

namespace PolarBear.Worker

open PolarBear.Py
open PolarBear.Fallible
open PolarBear.Report (ReportRPCAPI)

/-- The start of a call: nothing is sent yet. -/
def Run.start {κ : Type} (server : ReportRPCAPI) (world : κ) : Run κ := ⟨⟨server, []⟩, world⟩

/-- No `FAIL` is sent after a `PASS`. -/
def NoFailAfterPass (sent : List Report) : Prop :=
  sent.Pairwise (fun r s => ¬ (r.status = .pass ∧ s.status = .fail))

/-- From flag `finishFlag`, a call took at most one off and never contradicted
its success report. -/
def AtMostOnce {κ : Type} (finishFlag : Int) (after : Run κ) : Prop :=
  finishFlag - 1 ≤ after.session.server.finishFlag ∧ NoFailAfterPass after.session.sent

section

variable {κ : Type} (tool : EStateM PyError κ (PyVal × Status)) (deliver : Nat → Delivery)
  (world : κ)

/-- The success report of the tool comes back as an exception, and what the
handler then sends is a `FAIL` after a `PASS` or reaches the server too. -/
def CountsTwice : Prop :=
  ∃ out status w e, tool.run world = .ok (out, status) w ∧ (deliver 0).raises = some e ∧
    e.message.strOk ∧ (status = .pass ∨ (deliver 1).reached = true)

theorem reached_of_raises {d : Delivery} {e : PyError} (h : d.raises = some e) :
    d.reached = true := by
  cases d with
  | lost => cases h
  | handled recorded inTime => rfl

/-- One report leaves every call within its bounds. -/
theorem atMostOnce_single (server : ReportRPCAPI) (w : κ) (arg : Report) :
    AtMostOnce server.finishFlag ((Run.start server w).after deliver arg) := by
  refine ⟨?_, List.pairwise_singleton _ _⟩
  show server.finishFlag - 1 ≤ server.finishFlag - _
  split <;> omega

/-- No report at all does so too. -/
theorem atMostOnce_none (server : ReportRPCAPI) (w : κ) :
    AtMostOnce server.finishFlag (Run.start server w) :=
  ⟨show server.finishFlag - 1 ≤ server.finishFlag by omega, List.Pairwise.nil⟩

/-- A second, failed report is harmless exactly when the first was not a pass
and the second does not reach the server. -/
theorem atMostOnce_second (server : ReportRPCAPI) (w : κ) (first second : Report) {e : PyError}
    (hraises : (deliver 0).raises = some e) (hfail : second.status = .fail) :
    AtMostOnce server.finishFlag
        (((Run.start server w).after deliver first).after deliver second) ↔
      ¬ (first.status = .pass ∨ (deliver 1).reached = true) := by
  have hflag : (((Run.start server w).after deliver first).after deliver
      second).session.server.finishFlag =
        server.finishFlag - 1 - if (deliver 1).reached then 1 else 0 := by
    show server.finishFlag - (if (deliver 0).reached then 1 else 0) - _ = _
    rw [reached_of_raises hraises]
    rfl
  have hsent : NoFailAfterPass (((Run.start server w).after deliver first).after deliver
      second).session.sent ↔ ¬ first.status = .pass := by
    show List.Pairwise _ [first, second] ↔ _
    rw [List.pairwise_pair]
    exact ⟨fun h hp => h ⟨hp, hfail⟩, fun h hp => h hp.1⟩
  unfold AtMostOnce
  rw [hflag, hsent]
  cases (deliver 1).reached with
  | true =>
    -- the flag has gone down twice
    rw [if_pos rfl]
    refine ⟨fun h => ?_, fun h => absurd (Or.inr rfl) h⟩
    have hflag₁ := h.1
    omega
  | false =>
    rw [if_neg Bool.false_ne_true, Int.sub_zero, or_iff_left Bool.false_ne_true]
    exact ⟨fun h => h.2, fun h => ⟨Int.le_refl _, h⟩⟩

/-- The same for any step of the shape `reportedStep`. -/
theorem reportedStep_atMostOnce_iff (topic method : String) (stepid : Json)
    {handlerOut : PyVal → Except PyError PyVal}
    (hok : ∀ message, (∃ out, handlerOut message = .ok out) ↔ PyVal.strOk message)
    (server : ReportRPCAPI) :
    AtMostOnce server.finishFlag (endState ((reportedStep deliver topic method stepid tool
        handlerOut).run (Run.start server world))) ↔ ¬ CountsTwice tool deliver world := by
  unfold CountsTwice
  cases htool : tool.run world with
  | error e w =>
    rw [endState_reportedStep_error deliver topic method stepid handlerOut
      (Run.start server world) htool]
    -- one report of the handler, or none
    have hone : AtMostOnce server.finishFlag
        (failed deliver topic method stepid (handlerOut e.message) (Run.start server w)) := by
      unfold failed
      split
      · exact atMostOnce_single deliver server w _
      · exact atMostOnce_none server w
    refine ⟨fun _ h => ?_, fun _ => hone⟩
    obtain ⟨_, _, _, _, h, _⟩ := h
    cases h
  | ok p w =>
    obtain ⟨out, status⟩ := p
    cases hraises : (deliver 0).raises with
    | none =>
      rw [endState_reportedStep_ok deliver topic method stepid handlerOut
        (Run.start server world) htool hraises]
      refine ⟨fun _ h => ?_, fun _ => atMostOnce_single deliver server w _⟩
      obtain ⟨_, _, _, _, _, h, _⟩ := h
      cases h
    | some e =>
      rw [endState_reportedStep_raised deliver topic method stepid handlerOut
        (Run.start server world) htool hraises]
      cases hhandler : handlerOut e.message with
      | error e' =>
        refine ⟨fun _ h => ?_, fun _ => atMostOnce_single deliver server w _⟩
        obtain ⟨_, _, _, _, -, he, hstr, -⟩ := h
        cases he
        obtain ⟨out', hout'⟩ := (hok e.message).mpr hstr
        rw [hhandler] at hout'
        cases hout'
      | ok out' =>
        have hstr : e.message.strOk := (hok e.message).mp ⟨out', hhandler⟩
        have hsecond := atMostOnce_second deliver server w
          ⟨topic, method, out, status, stepid⟩ ⟨topic, method, out', .fail, stepid⟩ hraises rfl
        refine hsecond.trans (not_congr ⟨fun hbad => ?_, fun htwice => ?_⟩)
        · exact ⟨out, status, w, e, rfl, rfl, hstr, hbad⟩
        · obtain ⟨_, _, _, _, hp, -, -, hbad⟩ := htwice
          cases hp
          exact hbad

end

/-- **At most once, exactly**: a call of an http or docker method takes more
than one off the flag, or fails a step it passed, precisely when it counts
twice. -/
theorem atMostOnce_iff {κ : Type} (tools : Tools κ) (strOther : Json → String)
    (deliver : Nat → Delivery) (m : ReportedMethod) (parameters : List (String × Json))
    (topic : String) (server : ReportRPCAPI) (world : κ) :
    AtMostOnce server.finishFlag
        (endState ((callReported tools strOther deliver m parameters topic).run
          (Run.start server world))) ↔
      ¬ CountsTwice (stepTool tools strOther m parameters) deliver world := by
  obtain ⟨method, handlerOut, hcall, hok⟩ :=
    callReported_eq tools strOther deliver m parameters topic
  rw [hcall]
  exact reportedStep_atMostOnce_iff _ deliver world topic method _ hok server

/-- The page is fetched, recording `PASS` raises on the server, and the same
step is reported as failed: flag `1` ends at `-1`. -/
theorem passed_step_counts_twice :
    ¬ AtMostOnce 1 (endState ((callReported
      (plainTools (pure ⟨200, .ok "hello"⟩) (pure (.bytes "", .bytes ""))) (fun _ => "None")
      (fun _ => .handled (.error (.key "7")) true) .get [("url", .str "http://10.0.0.1/")]
      "report").run (Run.start ⟨1, 1, "7", "login"⟩ ()))) :=
  fun h => absurd h.1 (by decide)

end PolarBear.Worker
