import Tabletop.Proofs.Authority.Run
import Tabletop.Proofs.Calls.Outcome
import Tabletop.Proofs.Links.Recipients

/-
  Links that are put off are neither lost nor repeated, and they stay in order.

  The macros of a link that is taken from the queue may put further links into it while the queue is
  being emptied, in functions, in text and in other links.

  1. **The queue grows at its end** — whatever macros do, they leave the queue as it was with links
     added behind it (`Table.Course.exists_queue_eq`): none of their changes takes a link away.
     `execLink` adds exactly the text that it is given (`Registry.call_execLink_deferred`).

  2. **Attempts** — `Attempts t as u`: links are taken one by one from the front of the queue and
     followed, the next one only behind a success.  The bookkeeping is one equation
     (`Attempts.map_link_append`): the links that were attempted, and behind them the queue that is
     left, are the first queue and behind it all that was added.

  3. **Runs** — emptying the queue is a list of attempts, however it ends (`exists_attempts`).
-/
namespace Tabletop

/-! ## The queue grows at its end -/

namespace Table

/-- A single change adds at most one link. -/
theorem Change.queue_isPrefix {a : Authority} {t u : Table} (h : t.Change a u) : t.queue <+: u.queue := by
  cases h with
  | enqueue _ link => exact List.prefix_append t.queue [link]
  | roll | store | join | leave | setRound | next | deliver | define => exact List.prefix_refl t.queue

/-- **No macro takes a link from the queue**; it adds links behind those that are there. -/
theorem Course.exists_queue_eq {a : Authority} {t u : Table} (h : Course a t u) :
    ∃ added, u.queue = t.queue ++ added := by
  obtain ⟨added, hadded⟩ := h.isPrefix Change.queue_isPrefix
  exact ⟨added, hadded.symm⟩

end Table

/-- **Putting a link off** adds its text to the queue.  It needs a trusted frame. -/
theorem Registry.call_execLink_deferred (calls : Calls) (link flag : Value) (hflag : flag.isTrue = true)
    (f : Frame) (s : RunState) :
    Registry.builtins.call calls "execLink" [link, flag] f s =
      if f.trusted then
        (.ok .empty, { s with table := { s.table with queue := s.table.queue ++ [link.display] } })
      else (.error (.error (.permission "execLink")), s) := by
  have hfind : Registry.builtins.find? "execLink" = some Builtin.execLink :=
    (Registry.find?_builtins _).trans rfl
  have hdeferred : Arguments.flagAt [link, flag] 1 false = true := hflag
  rw [Registry.call_of_trusted hfind rfl rfl, Action.bind_apply, Action.requireTrust_apply]
  cases f.trusted with
  | false => rfl
  | true =>
    simp only [Builtin.execLink, Builtin.trustedOnly, Builtin.acting, Behaviour.run, hdeferred, if_true]
    rfl

/-! ## Attempts -/

/-- What came of a link that was taken from the queue. -/
structure Attempt where
  link : String
  result : Except MacroError LinkReport
  /-- The links that were put into the queue meanwhile. -/
  added : List String
deriving Inhabited

/-- Links are taken from the front of the queue and followed, up to the first error. -/
inductive Attempts (i : Interpreter) : Table → List Attempt → Table → Prop
  | nil (t : Table) : Attempts i t [] t
  | cons {t u v : Table} {link : String} {rest added : List String}
      {result : Except MacroError LinkReport} {as : List Attempt} (front : t.queue = link :: rest)
      (run : i.follow link false { t with queue := rest } = (result.mapError .error, u))
      (grows : u.queue = rest ++ added) (others : Attempts i u as v)
      (goes : as ≠ [] → ∃ report, result = .ok report) :
      Attempts i t (⟨link, result, added⟩ :: as) v

namespace Attempts

variable {i : Interpreter} {t u : Table} {as : List Attempt}

/-- **The bookkeeping of the queue.** -/
theorem map_link_append (h : Attempts i t as u) :
    as.map Attempt.link ++ u.queue = t.queue ++ as.flatMap Attempt.added := by
  induction h with
  | nil => exact (List.append_nil _).symm
  | @cons t u v link rest added result as front run grows others goes ih =>
    calc (link :: as.map Attempt.link) ++ v.queue
        = link :: (u.queue ++ as.flatMap Attempt.added) := by rw [List.cons_append, ih]
      _ = (link :: rest) ++ (added ++ as.flatMap Attempt.added) := by
          rw [grows, List.append_assoc, List.cons_append]
      _ = t.queue ++ (⟨link, result, added⟩ :: as).flatMap Attempt.added := by
          rw [front, List.flatMap_cons]

end Attempts

/-! ## Runs -/

/-- Following a link does not end with an abort. -/
theorem followLink_ne_abort (evaluate : String → Action Unit) (text player : String) (t : Table)
    (m : Option String) : (followLink evaluate text player false t).1 ≠ .error (.abort m) := by
  cases hdecode : MacroLink.decode text with
  | none =>
    unfold followLink
    rw [hdecode]
    exact nofun
  | some link =>
    rw [followLink_apply evaluate hdecode player]
    simp only [Bool.false_eq_true, if_false]
    generalize LinkReport.empty = report
    induction t.campaign.recipients link.recipients generalizing report t with
    | nil => exact nofun
    | cons r rs ih =>
      intro h
      rcases TableM.bind_eq_error h with h | ⟨output, u, h⟩
      · exact runRecipient_ne_abort _ _ _ _ _ _ h
      · exact ih _ _ h

/-- Following a link adds to the queue what it adds, and ends with a report or an error unless it is
    exhausted. -/
theorem Interpreter.exists_follow_eq (config : Config) (depth : Nat) (text : String) (t : Table) :
    let i : Interpreter := ⟨config, .builtins, depth⟩
    (i.follow text false t).1 = .error .exhausted ∨
      ∃ (result : Except MacroError LinkReport) (u : Table) (added : List String),
        i.follow text false t = (result.mapError .error, u) ∧ u.queue = t.queue ++ added := by
  intro i
  have hlawful : i.calls.Lawful := Calls.ofDepth_lawful Registry.builtins_lawful depth
  have hcourse := followLink_lawful (a := ⟨none, true⟩) rfl hlawful.evaluate text config.player false t
  obtain ⟨added, hadded⟩ := hcourse.exists_queue_eq
  have habort := followLink_ne_abort i.calls.evaluate text config.player t
  rcases hrun : followLink i.calls.evaluate text config.player false t with ⟨end_, u⟩
  rw [hrun] at hadded
  rcases end_ with e | report
  · cases e with
    | error e => exact .inr ⟨.error e, u, added, hrun, hadded⟩
    | abort m => exact absurd (congrArg Prod.fst hrun) (habort m)
    | exhausted => exact .inl (congrArg Prod.fst hrun)
  · exact .inr ⟨.ok report, u, added, hrun, hadded⟩

namespace Interpreter

variable {i : Interpreter} {n : Nat} {t u : Table}

/-- An empty queue is left as it is. -/
theorem followQueued_of_nil (h : t.queue = []) : i.followQueued (n + 1) t = (.ok [], t) := by
  simp [followQueued, h]

/-- The first link is taken from the queue before it is followed. -/
theorem followQueued_of_cons {link : String} {rest : List String} (front : t.queue = link :: rest) :
    i.followQueued (n + 1) t =
      (do
        let report ← i.follow link false
        let reports ← i.followQueued n
        pure (report :: reports) : TableM (List LinkReport)) { t with queue := rest } := by
  rw [followQueued, TableM.bind_apply, TableM.get_apply]
  dsimp only
  rw [front]
  rfl

/-- An error of the first link ends it all. -/
theorem followQueued_of_error {link : String} {rest : List String} {e : Interrupt}
    (front : t.queue = link :: rest)
    (run : i.follow link false { t with queue := rest } = (.error e, u)) :
    i.followQueued (n + 1) t = (.error e, u) := by
  rw [followQueued_of_cons front, TableM.bind_apply, run]

/-- Behind a success the others follow. -/
theorem followQueued_of_report {link : String} {rest : List String} {report : LinkReport}
    (front : t.queue = link :: rest)
    (run : i.follow link false { t with queue := rest } = (.ok report, u)) :
    i.followQueued (n + 1) t =
      ((i.followQueued n u).1.map (report :: ·), (i.followQueued n u).2) := by
  rw [followQueued_of_cons front, TableM.bind_apply, run]
  dsimp only
  rw [TableM.bind_apply]
  rcases i.followQueued n u with ⟨end_, v⟩
  cases end_ <;> rfl

end Interpreter

/-- How emptying a queue ends that is not exhausted: with a report of every attempt and nothing left to
    do, or with the error of the last attempt. -/
inductive Attempts.End : List Attempt → Except Interrupt (List LinkReport) → Table → Prop
  | done {as : List Attempt} {reports : List LinkReport} {u : Table}
      (results : as.map Attempt.result = reports.map .ok) (empty : u.queue = []) : End as (.ok reports) u
  | stopped {before : List Attempt} {last : Attempt} {e : MacroError} {u : Table}
      (successes : ∀ a ∈ before, ∃ report, a.result = .ok report) (failure : last.result = .error e) :
      End (before ++ [last]) (.error (.error e)) u

/-- A success in front of other attempts. -/
theorem Attempts.End.cons {as : List Attempt} {end_ : Except Interrupt (List LinkReport)} {u : Table}
    (h : End as end_ u) {a : Attempt} {report : LinkReport} (ha : a.result = .ok report) :
    End (a :: as) (end_.map (report :: ·)) u := by
  cases h with
  | done results empty => exact .done (by rw [List.map_cons, ha, results, List.map_cons]) empty
  | @stopped before last _ _ successes failure =>
    show End ((a :: before) ++ [last]) _ _
    refine .stopped (fun b hb => ?_) failure
    rcases List.mem_cons.1 hb with rfl | hb
    · exact ⟨report, ha⟩
    · exact successes b hb

/-- **Emptying a queue is a list of attempts.** -/
theorem Interpreter.exists_attempts (config : Config) (depth n : Nat) (t : Table) :
    let i : Interpreter := ⟨config, .builtins, depth⟩
    (i.followQueued n t).1 ≠ .error .exhausted →
      ∃ as, Attempts i t as (i.followQueued n t).2 ∧
        Attempts.End as (i.followQueued n t).1 (i.followQueued n t).2 := by
  intro i
  induction n generalizing t with
  | zero => exact fun h => absurd rfl h
  | succ n ih =>
    intro hends
    cases front : t.queue with
    | nil =>
      rw [followQueued_of_nil front]
      exact ⟨[], .nil t, .done rfl front⟩
    | cons link rest =>
      -- the first link is followed: it runs out of depth, it fails, or it has a report
      rcases exists_follow_eq config depth link { t with queue := rest } with
        hexhausted | ⟨result, u, added, hrun, hadded⟩
      · rw [followQueued_of_error front (Prod.ext hexhausted rfl)] at hends
        exact absurd rfl hends
      · cases result with
        | error e =>
          have hend : Attempts.End ([] ++ [⟨link, .error e, added⟩]) (.error (.error e)) u :=
            .stopped nofun rfl
          rw [followQueued_of_error front hrun]
          exact ⟨[⟨link, .error e, added⟩], .cons front hrun hadded (.nil u) fun h => absurd rfl h, hend⟩
        | ok report =>
          rw [followQueued_of_report front hrun] at hends ⊢
          -- what is left of the queue ends as all of it does
          have hothers : (i.followQueued n u).1 ≠ .error .exhausted := by
            intro h
            rw [h] at hends
            exact absurd rfl hends
          obtain ⟨as, hattempts, hend⟩ := ih u hothers
          exact ⟨⟨link, .ok report, added⟩ :: as,
            .cons front hrun hadded hattempts fun _ => ⟨report, rfl⟩, hend.cons rfl⟩

/-- **Links that are put off are neither lost nor repeated, and stay in order.**  Emptying a queue makes
    attempts from its front, one after the other.  The attempted links, and behind them the queue at the
    end, are the queue at the start and behind it the links that were put off meanwhile.  With a report
    of every attempt the queue is empty; an error is that of the last attempt.  A macro puts a link off
    by adding it at the end. -/
theorem Interpreter.followQueue_accounts (config : Config) (depth : Nat) (t : Table) :
    let i : Interpreter := ⟨config, .builtins, depth⟩
    ((i.followQueue t).1 ≠ .error .exhausted →
      ∃ as, Attempts i t as (i.followQueue t).2 ∧
        as.map Attempt.link ++ (i.followQueue t).2.queue = t.queue ++ as.flatMap Attempt.added ∧
        Attempts.End as (i.followQueue t).1 (i.followQueue t).2) ∧
    ∀ (calls : Calls) (link flag : Value) (f : Frame) (s : RunState),
      f.trusted = true → flag.isTrue = true →
        Registry.builtins.call calls "execLink" [link, flag] f s =
          (.ok .empty, { s with table := { s.table with queue := s.table.queue ++ [link.display] } }) := by
  intro i
  refine ⟨fun hends => ?_, fun calls link flag f s htrusted hflag => ?_⟩
  · obtain ⟨as, hattempts, hend⟩ := exists_attempts config depth (depth + 1) t hends
    exact ⟨as, hattempts, hattempts.map_link_append, hend⟩
  · rw [Registry.call_execLink_deferred calls link flag hflag, if_pos htrusted]

/-- A link to a macro of the library of the relay. -/
def relayLink (label : String) : String := "macro://" ++ label ++ "@Lib:Relay/none/impersonated?"

/-- Two links are in the queue.  The macro of the first one puts a third link off, twice, and the macro
    of the third one fails. -/
def relay : Table :=
  { Table.ofCampaign { Campaign.new "Relay" with
      tokens := [{ Token.named ⟨1⟩ "Lib:Relay" with buttons := [
        ⟨"first", "[h: x = '" ++ relayLink "third" ++ "'][h: execLink(x, 1)][h: execLink(x, 1)]", false, ""⟩,
        ⟨"second", "on", false, ""⟩, ⟨"third", "[h: assert(0, 'fallen')]", false, ""⟩] }] } ⟨0⟩ with
    queue := [relayLink "first", relayLink "second"] }

/-- A trusted frame, and a state in which it runs at the relay. -/
def relayFrame : Frame := (RunRequest.ofText (.unattached true) "Gina" none).frame true

@[inherit_doc relayFrame]
def relayState : RunState := ⟨relay, [], ""⟩

/-- The third link fails and is gone, and the fourth one is left in the queue. -/
theorem followQueue_accounts_relay :
    let i : Interpreter := ⟨.default, .builtins, 3⟩
    (i.followQueue relay).1.toOption = none ∧ (i.followQueue relay).2.queue = [relayLink "third"] ∧
    (∃ as, Attempts i relay as (i.followQueue relay).2 ∧
      as.map Attempt.link ++ (i.followQueue relay).2.queue = relay.queue ++ as.flatMap Attempt.added ∧
      Attempts.End as (i.followQueue relay).1 (i.followQueue relay).2) ∧
    Registry.builtins.call i.calls "execLink" [.text "macro://", .ofInt 1] relayFrame relayState =
      (.ok .empty, { relayState with table := { relayState.table with
        queue := relayState.table.queue ++ [Value.display (.text "macro://")] } }) := by
  obtain ⟨haccounts, hdeferred⟩ := Interpreter.followQueue_accounts .default 3 relay
  -- with the interpreter written out, for it must not be run to compare the two sides
  dsimp only
  obtain ⟨hattempt, hnone, hqueue⟩ :
      (TableM.attempt (Interpreter.followQueue ⟨.default, .builtins, 3⟩) relay).1.toOption.isSome = true ∧
      (Interpreter.followQueue ⟨.default, .builtins, 3⟩ relay).1.toOption = none ∧
      (Interpreter.followQueue ⟨.default, .builtins, 3⟩ relay).2.queue = [relayLink "third"] := by
    decide +kernel
  refine ⟨hnone, hqueue, haccounts fun h => ?_,
    hdeferred _ (.text "macro://") (.ofInt 1) relayFrame relayState rfl (by decide +kernel)⟩
  rw [TableM.attempt_of_exhausted h] at hattempt
  cases hattempt

end Tabletop
