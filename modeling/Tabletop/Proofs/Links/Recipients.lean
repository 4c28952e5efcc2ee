import Tabletop.Proofs.Authority.Lawful
import Tabletop.Builtin.Catalog
import Tabletop.Table.Interpreter

/-
  The two ways of following a link.

  A link runs its macro for one recipient after the other.  It either stops at the first error or
  reports errors beside the outputs of the others.  Both ways make the same visits, the first one fewer
  of them.

  1. **Visits** — `Visits t rs vs u`: the recipients `rs` are visited in order, the first one at the
     table `t` and each later one at the table that the visit before it has left.  A visit ends with an
     output or with an error: an abort is the end of the macro and not of the visit (`runRecipient_ne_abort`).

  2. **Errors reported** — a run that is not exhausted visits every recipient (`exists_visits`), and its
     report is made of the visits (`Visits.runRecipientsApart_eq`).

  3. **Stopping at an error** — the same visits as long as none fails (`Visits.runRecipients_of_outputs`),
     and then the error and the table of the first one that does (`Visits.runRecipients_of_failure`).
-/
namespace Tabletop

/-! ## Visits -/

/-- What came of running the macro of a link for one recipient. -/
structure Visit where
  recipient : Recipient
  result : Except MacroError RecipientOutput
  /-- The table right after it. -/
  after : Table
deriving Inhabited

namespace Visit

/-- What a report has among its outputs. -/
def output? (v : Visit) : Option RecipientOutput := v.result.toOption

/-- What a report has among its failures. -/
def failure? (v : Visit) : Option RecipientFailure :=
  match v.result with
  | .ok _ => none
  | .error e => some ⟨v.recipient.label, e⟩

/-- A visit is in one of the two lists and not in the other. -/
theorem isSome_output?_eq (v : Visit) : v.output?.isSome = !v.failure?.isSome := by
  obtain ⟨recipient, result, after⟩ := v
  cases result <;> rfl

end Visit

/-- A report with what visits have to say. -/
def LinkReport.addVisits (report : LinkReport) (vs : List Visit) : LinkReport :=
  ⟨report.outputs ++ vs.filterMap Visit.output?, report.failures ++ vs.filterMap Visit.failure?⟩

namespace LinkReport

/-- The report of visits. -/
def ofVisits (vs : List Visit) : LinkReport := empty.addVisits vs

@[simp] theorem addVisits_nil (report : LinkReport) : report.addVisits [] = report := by
  show LinkReport.mk (report.outputs ++ []) (report.failures ++ []) = report
  rw [List.append_nil, List.append_nil]

/-- Visits can be added in two parts. -/
theorem addVisits_append (report : LinkReport) (vs ws : List Visit) :
    report.addVisits (vs ++ ws) = (report.addVisits vs).addVisits ws := by
  simp only [addVisits, List.filterMap_append, List.append_assoc]

theorem addVisits_output (report : LinkReport) (r : Recipient) (output : RecipientOutput) (t : Table) :
    report.addVisits [⟨r, .ok output, t⟩] = { report with outputs := report.outputs ++ [output] } := by
  show LinkReport.mk (report.outputs ++ [output]) (report.failures ++ []) = _
  rw [List.append_nil]

theorem addVisits_failure (report : LinkReport) (r : Recipient) (e : MacroError) (t : Table) :
    report.addVisits [⟨r, .error e, t⟩] =
      { report with failures := report.failures ++ [⟨r.label, e⟩] } := by
  show LinkReport.mk (report.outputs ++ []) (report.failures ++ [⟨r.label, e⟩]) = _
  rw [List.append_nil]

end LinkReport

variable {evaluate : String → Action Unit} {link : MacroLink} {player : String}

/-- Recipients are visited in order, each at the table that the one before has left. -/
inductive Visits (evaluate : String → Action Unit) (link : MacroLink) (player : String) :
    Table → List Recipient → List Visit → Table → Prop
  | nil (t : Table) : Visits evaluate link player t [] [] t
  | cons {t u w : Table} {r : Recipient} {rs : List Recipient} {vs : List Visit}
      {result : Except MacroError RecipientOutput}
      (visit : runRecipient evaluate link player r t = (result.mapError .error, u))
      (others : Visits evaluate link player u rs vs w) :
      Visits evaluate link player t (r :: rs) (⟨r, result, u⟩ :: vs) w

/-- Every recipient is visited once, and in order. -/
theorem Visits.map_recipient {t u : Table} {rs : List Recipient} {vs : List Visit}
    (h : Visits evaluate link player t rs vs u) : vs.map Visit.recipient = rs := by
  induction h with
  | nil => rfl
  | cons _ _ ih => rw [List.map_cons, ih]

/-! ## One visit -/

/-- A body that aborts has an output. -/
theorem runBody_ne_abort (evaluate : String → Action Unit) (body : String) (r : RunRequest) (t : Table)
    (m : Option String) : (runBody evaluate body r t).1 ≠ .error (.abort m) := by
  unfold runBody
  rcases evaluate body (r.frame (t.campaign.trusts r.origin)) ⟨t, r.bindings, ""⟩ with ⟨end_, s⟩
  rcases end_ with i | u
  · cases i <;> exact nofun
  · exact nofun

namespace TableM

variable {α β : Type}

/-- An interrupt of two steps is one of the first or one of the second. -/
theorem bind_eq_error {act : TableM α} {k : α → TableM β} {t : Table} {i : Interrupt}
    (h : ((act >>= k) t).1 = .error i) : (act t).1 = .error i ∨ ∃ a u, (k a u).1 = .error i := by
  rw [bind_apply] at h
  rcases hact : act t with ⟨r, u⟩
  rw [hact] at h
  cases r with
  | error j =>
    cases h
    exact .inl rfl
  | ok a => exact .inr ⟨a, u, h⟩

theorem ofExcept_ne_abort (r : Except MacroError α) (t : Table) (m : Option String) :
    (ofExcept r t).1 ≠ .error (.abort m) := by
  cases r <;> exact nofun

/-- What trying comes to where the end is not an abort and not exhausted. -/
theorem attempt_apply {act : TableM α} {t u : Table} {result : Except MacroError α}
    (h : act t = (result.mapError .error, u)) : attempt act t = (.ok result, u) := by
  unfold attempt
  rw [h]
  cases result <;> rfl

/-- An exhausted action cannot be tried. -/
theorem attempt_of_exhausted {act : TableM α} {t : Table} (h : (act t).1 = .error .exhausted) :
    attempt act t = (.error .exhausted, (act t).2) := by
  unfold attempt
  rcases hact : act t with ⟨r, u⟩
  rw [hact] at h
  rw [show r = .error .exhausted from h]

end TableM

/-- **An abort does not end a visit.** -/
theorem runRecipient_ne_abort (evaluate : String → Action Unit) (link : MacroLink) (player : String)
    (r : Recipient) (t : Table) (m : Option String) :
    (runRecipient evaluate link player r t).1 ≠ .error (.abort m) := by
  intro h
  unfold runRecipient at h
  rcases TableM.bind_eq_error h with h | ⟨subject, t, h⟩
  · exact TableM.ofExcept_ne_abort _ _ _ h
  rcases TableM.bind_eq_error h with h | ⟨c, t, h⟩
  · cases h
  rcases TableM.bind_eq_error h with h | ⟨located, t, h⟩
  · exact TableM.ofExcept_ne_abort _ _ _ h
  rcases TableM.bind_eq_error h with h | ⟨output, t, h⟩
  · exact runBody_ne_abort _ _ _ _ _ h
  split at h
  · cases h
  · cases h

/-- How a visit ends: with an output, with an error, or exhausted. -/
theorem exists_runRecipient_eq (evaluate : String → Action Unit) (link : MacroLink) (player : String)
    (r : Recipient) (t : Table) :
    (∃ (result : Except MacroError RecipientOutput) (u : Table),
      runRecipient evaluate link player r t = (result.mapError .error, u)) ∨
    ∃ u, runRecipient evaluate link player r t = (.error .exhausted, u) := by
  rcases hrun : runRecipient evaluate link player r t with ⟨end_, u⟩
  rcases end_ with i | output
  · cases i with
    | error e => exact .inl ⟨.error e, u, rfl⟩
    | abort m => exact absurd (congrArg Prod.fst hrun) (runRecipient_ne_abort _ _ _ _ _ m)
    | exhausted => exact .inr ⟨u, rfl⟩
  · exact .inl ⟨.ok output, u, rfl⟩

/-! ## Errors reported -/

/-- A run that reports errors goes on behind a recipient, whatever came of it. -/
theorem runRecipientsApart_cons {r : Recipient} {rs : List Recipient} {t u : Table}
    {result : Except MacroError RecipientOutput} (report : LinkReport)
    (h : runRecipient evaluate link player r t = (result.mapError .error, u)) :
    runRecipientsApart evaluate link player report (r :: rs) t =
      runRecipientsApart evaluate link player (report.addVisits [⟨r, result, u⟩]) rs u := by
  rw [runRecipientsApart, TableM.bind_apply, TableM.attempt_apply h]
  cases result with
  | ok output => rw [LinkReport.addVisits_output]
  | error e => rw [LinkReport.addVisits_failure]

/-- **The report of a run is made of its visits.** -/
theorem Visits.runRecipientsApart_eq {t u : Table} {rs : List Recipient} {vs : List Visit}
    (h : Visits evaluate link player t rs vs u) (report : LinkReport) :
    runRecipientsApart evaluate link player report rs t = (.ok (report.addVisits vs), u) := by
  induction h generalizing report with
  | nil t =>
    rw [LinkReport.addVisits_nil]
    rfl
  | cons visit _ ih =>
    rw [runRecipientsApart_cons report visit, ih, ← LinkReport.addVisits_append]
    rfl

/-- **A run visits every recipient**, unless it is exhausted. -/
theorem exists_visits {t : Table} {rs : List Recipient} {report : LinkReport}
    (h : (runRecipientsApart evaluate link player report rs t).1 ≠ .error .exhausted) :
    ∃ vs u, Visits evaluate link player t rs vs u := by
  induction rs generalizing t report with
  | nil => exact ⟨[], t, .nil t⟩
  | cons r rs ih =>
    rcases exists_runRecipient_eq evaluate link player r t with ⟨result, u, hvisit⟩ | ⟨u, hvisit⟩
    · rw [runRecipientsApart_cons report hvisit] at h
      obtain ⟨vs, w, hothers⟩ := ih h
      exact ⟨_, w, .cons hvisit hothers⟩
    · rw [runRecipientsApart, TableM.bind_apply, 
        TableM.attempt_of_exhausted (congrArg Prod.fst hvisit)] at h
      exact absurd rfl h

/-! ## Stopping at an error -/

/-- **Without an error nothing is different.** -/
theorem Visits.runRecipients_of_outputs {t u : Table} {rs : List Recipient} {vs : List Visit}
    (h : Visits evaluate link player t rs vs u) (hvs : ∀ v ∈ vs, v.failure? = none)
    (report : LinkReport) :
    runRecipients evaluate link player report rs t = (.ok (report.addVisits vs), u) := by
  induction h generalizing report with
  | nil t =>
    rw [LinkReport.addVisits_nil]
    rfl
  | @cons _ _ _ r _ _ result visit _ ih =>
    have hothers := ih fun v hv => hvs v (List.mem_cons_of_mem _ hv)
    cases result with
    | error e => exact nomatch hvs _ List.mem_cons_self
    | ok output =>
      rw [runRecipients, TableM.bind_apply, visit, ← List.singleton_append,
        LinkReport.addVisits_append, LinkReport.addVisits_output]
      exact hothers _

/-- **The first error ends the run** right behind its visit. -/
theorem Visits.runRecipients_of_failure {t u : Table} {rs : List Recipient} {vs before after : List Visit}
    (h : Visits evaluate link player t rs vs u) {v : Visit} {e : MacroError}
    (hvs : vs = before ++ v :: after) (hbefore : ∀ w ∈ before, w.failure? = none)
    (hv : v.result = .error e) (report : LinkReport) :
    runRecipients evaluate link player report rs t = (.error (.error e), v.after) := by
  induction h generalizing before report with
  | nil => exact absurd hvs.symm (List.append_ne_nil_of_right_ne_nil _ (List.cons_ne_nil _ _))
  | @cons _ _ _ r _ _ result visit _ ih =>
    rw [runRecipients, TableM.bind_apply, visit]
    -- the first visit is the one that failed, or it was one without failure
    cases before with
    | nil =>
      obtain ⟨hhead, -⟩ := List.cons.inj hvs
      subst hhead
      dsimp only at hv
      subst hv
      rfl
    | cons w before =>
      obtain ⟨hhead, htail⟩ := List.cons.inj hvs
      subst hhead
      cases result with
      | error e' => exact nomatch hbefore _ List.mem_cons_self
      | ok output => exact ih htail (fun x hx => hbefore x (List.mem_cons_of_mem _ hx)) _

/-! ## Links -/

/-- What following a link comes to for a text that is one. -/
theorem followLink_apply (evaluate : String → Action Unit) {text : String}
    (h : MacroLink.decode text = some link) (player : String) (apart : Bool) (t : Table) :
    followLink evaluate text player apart t =
      let rs := t.campaign.recipients link.recipients
      if apart then runRecipientsApart evaluate link player .empty rs t
      else runRecipients evaluate link player .empty rs t := by
  unfold followLink
  rw [h]
  cases apart <;> rfl

/-- What the two ways of following a link have in common, in terms of the visits `vs` and of the table
    `u` behind them. -/
structure ModesAgree (i : Interpreter) (text : String) (link : MacroLink) (player : String) (t : Table)
    (vs : List Visit) (u : Table) : Prop where
  visits : Visits i.calls.evaluate link player t (t.campaign.recipients link.recipients) vs u
  recipients : vs.map Visit.recipient = t.campaign.recipients link.recipients
  /-- Each visit is either among the outputs or among the failures. -/
  either : ∀ v ∈ vs, v.output?.isSome = !v.failure?.isSome
  apart : followLink i.calls.evaluate text player true t = (.ok (.ofVisits vs), u)
  /-- Without failures the run that stops at an error is the same. -/
  same : (LinkReport.ofVisits vs).failures = [] →
    followLink i.calls.evaluate text player false t = followLink i.calls.evaluate text player true t
  /-- It ends with the error of the first visit that fails, at the table right after this visit. -/
  stops : ∀ before v after e, vs = before ++ v :: after → (LinkReport.ofVisits before).failures = [] →
    v.result = .error e →
      followLink i.calls.evaluate text player false t = (.error (.error e), v.after)

/-- **The two ways of following a link agree.**  The way that reports errors visits every recipient, and
    its report is made of the visits, in the order of the recipients.  The way that stops at an error
    leads to the same report and table if there are no failures, and else to the error of the first
    visit that failed and to the table right after it. -/
theorem followLink_modes_agree (i : Interpreter) {text : String} {link : MacroLink}
    (hlink : MacroLink.decode text = some link) (player : String) (t : Table)
    (hends : (followLink i.calls.evaluate text player true t).1 ≠ .error .exhausted) :
    ∃ vs u, ModesAgree i text link player t vs u := by
  -- both modes run the same recipients
  have hapart := followLink_apply i.calls.evaluate hlink player true t
  have hstop := followLink_apply i.calls.evaluate hlink player false t
  simp only [if_true, Bool.false_eq_true, if_false] at hapart hstop
  rw [hapart] at hends
  obtain ⟨vs, u, hvisits⟩ := exists_visits hends
  have hreport := hvisits.runRecipientsApart_eq .empty
  refine ⟨vs, u, {
    visits := hvisits
    recipients := hvisits.map_recipient
    either := fun v _ => v.isSome_output?_eq
    apart := hapart.trans hreport
    same := fun hnone => ?_
    stops := fun before v after e hvs hbefore hv => ?_ }⟩
  · rw [hstop, hapart, hreport]
    exact hvisits.runRecipients_of_outputs (List.filterMap_eq_nil_iff.1 hnone) .empty
  · rw [hstop]
    exact hvisits.runRecipients_of_failure hvs (List.filterMap_eq_nil_iff.1 hbefore) hv .empty

/-- A table with a trusted library whose macro takes two hit points: it aborts at none and fails at
    one. -/
def raid : Table :=
  .ofCampaign { Campaign.new "Raid" with
    tokens := [{ Token.named ⟨1⟩ "Hero" with properties := .ofList [("HP", "4")] },
      { Token.named ⟨2⟩ "Ogre" with properties := .ofList [("HP", "3")] },
      { Token.named ⟨3⟩ "Lib:Rules" with buttons := [⟨"hit",
        "[h: HP = HP - 2][h: setProperty('HP', HP)][h: HP || abort()][h: assert(HP - 1, 'down')]ouch",
        false, ""⟩] }] } ⟨0⟩

/-- A link for recipients one of which is there twice and one not at all. -/
def raidLink : String := "macro://hit@Lib:Rules/all/Hero,Nobody,Hero,Ogre?"

/-- An output, an unknown recipient, an abort and an error of the macro. -/
theorem followLink_modes_agree_raid :
    let i : Interpreter := ⟨.default, .builtins, 3⟩
    (followLink i.calls.evaluate raidLink "Gina" true raid).1.toOption =
      some ⟨[⟨some ⟨1⟩, "ouch", false⟩, ⟨some ⟨1⟩, "", true⟩],
        [⟨"Nobody", .unknownToken "macroLink" "Nobody"⟩,
          ⟨"Ogre", .assertionFailed "Macro-defined error: down"⟩]⟩ ∧
    ∃ link, MacroLink.decode raidLink = some link ∧ ∃ vs u, ModesAgree i raidLink link "Gina" raid vs u := by
  intro i
  have hrun : (followLink i.calls.evaluate raidLink "Gina" true raid).1.toOption =
      some ⟨[⟨some ⟨1⟩, "ouch", false⟩, ⟨some ⟨1⟩, "", true⟩],
        [⟨"Nobody", .unknownToken "macroLink" "Nobody"⟩,
          ⟨"Ogre", .assertionFailed "Macro-defined error: down"⟩]⟩ := by decide +kernel
  have hdecodes : (MacroLink.decode raidLink).isSome = true := by decide +kernel
  obtain ⟨link, hlink⟩ := Option.isSome_iff_exists.1 hdecodes
  refine ⟨hrun, link, hlink, followLink_modes_agree i hlink "Gina" raid fun hexhausted => ?_⟩
  rw [hexhausted] at hrun
  cases hrun

end Tabletop
