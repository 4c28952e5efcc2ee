import Tabletop.Proofs.Authority.Run
import Tabletop.Table.Session

/-
  Whose messages a reply carries.

  A line of chat runs, its links run, the queue runs, and then the reply takes all messages out of the
  transcript.  A line that fails somewhere on the way never gets to that last step.

  1. **The transcript grows at its end** — nothing that a line starts takes a message out of the
     transcript or moves one (`Interpreter.runLine_growsTranscript`).  So the messages that were
     delivered while a line ran are what it has added (`Interpreter.delivered`).

  2. **One line** — a reply carries the transcript as the line found it, and then what was delivered
     meanwhile; the transcript is empty behind it.  A failed line leaves both in the transcript
     (`Interpreter.messages_send`, `Interpreter.transcript_of_failed`).

  3. **Many lines** — so a reply begins with what the failed lines right in front of it have delivered
     (`leftover`).  All replies carry their own messages alone exactly if no line that failed after
     delivering something has an answered line behind it (`ownMessages_iff`).
-/
namespace Tabletop

/-! ## The transcript grows at its end -/

/-- Only a delivery changes the transcript, and it adds its message at the end. -/
theorem Table.Change.transcript_isPrefix {a : Authority} {t u : Table} (h : t.Change a u) :
    t.campaign.transcript <+: u.campaign.transcript := by
  cases h with
  | deliver _ m => exact List.prefix_append t.campaign.transcript [m]
  | roll | store | join | leave | setRound | next | define | enqueue =>
    exact List.prefix_refl t.campaign.transcript

namespace TableM

variable {α β : Type} {act : TableM α}

/-- However it ends, the transcript has messages added behind those that were there. -/
def GrowsTranscript (act : TableM α) : Prop :=
  ∀ t, t.campaign.transcript <+: (act t).2.campaign.transcript

namespace GrowsTranscript

theorem of_transcript_eq (h : ∀ t, (act t).2.campaign.transcript = t.campaign.transcript) :
    GrowsTranscript act := by
  intro t
  exact ⟨[], by rw [List.append_nil, h t]⟩

/-- Whatever stays within an authority adds messages at the end. -/
theorem of_lawful {a : Authority} (h : act.Lawful a) : GrowsTranscript act :=
  fun t => (h t).isPrefix Table.Change.transcript_isPrefix

theorem pure (x : α) : GrowsTranscript (Pure.pure x : TableM α) := of_transcript_eq fun _ => rfl

theorem campaign : GrowsTranscript TableM.campaign := of_transcript_eq fun _ => rfl

theorem bind {k : α → TableM β} (h : GrowsTranscript act) (hk : ∀ x, GrowsTranscript (k x)) :
    GrowsTranscript (act >>= k) := by
  intro t
  have ht := h t
  rw [bind_apply]
  rcases hact : act t with ⟨end_, u⟩
  rw [hact] at ht
  cases end_ with
  | error i => exact ht
  | ok x => exact ht.trans (hk x u)

end GrowsTranscript

end TableM

namespace Interpreter

open TableM (GrowsTranscript)

/-- Everything that a line of chat does before its answer: the line itself, the links in its output, and
    the queue. -/
def runLine (i : Interpreter) (text : String) : TableM (MacroOutput × List LinkReport) := do
  let output ← i.runChat text
  let links ← i.followByThemselves (MacroLink.scan output.text)
  let later ← i.followQueue
  pure (output, links ++ later)

variable {i : Interpreter} (lawful : ∀ b ∈ i.registry.entries, Builtin.Lawful b)
include lawful

theorem follow_growsTranscript (text : String) (apart : Bool) : GrowsTranscript (i.follow text apart) := by
  have hcalls := Calls.ofDepth_lawful lawful i.depth
  -- links are followed for the player, with all that a trusted macro may do
  exact .of_lawful (followLink_lawful (a := ⟨none, true⟩) rfl hcalls.evaluate text i.config.player apart)

theorem runChat_growsTranscript (text : String) : GrowsTranscript (i.runChat text) := by
  refine .bind .campaign fun c t => ?_
  have hcourse := run_course lawful text
    (.ofText (.unattached i.config.trustChat) i.config.player c.impersonated) t
  exact hcourse.isPrefix Table.Change.transcript_isPrefix

theorem followByThemselves_growsTranscript (texts : List String) :
    GrowsTranscript (i.followByThemselves texts) := by
  induction texts with
  | nil => exact .pure []
  | cons text rest ih =>
    refine .bind .campaign fun c => ?_
    split
    · exact .bind (follow_growsTranscript lawful text false) fun _ => .bind ih fun _ => .pure _
    · exact ih

theorem followQueued_growsTranscript (n : Nat) : GrowsTranscript (i.followQueued n) := by
  induction n with
  | zero => exact .of_transcript_eq fun _ => rfl
  | succ n ih =>
    refine .bind (show GrowsTranscript get from .of_transcript_eq fun _ => rfl) fun u => ?_
    split
    · exact .pure []
    · -- taking a link from the queue is no change that a macro makes, but it leaves the campaign alone
      refine .bind (show GrowsTranscript (modify _) from .of_transcript_eq fun _ => rfl) fun _ => ?_
      exact .bind (follow_growsTranscript lawful _ false) fun _ => .bind ih fun _ => .pure _

/-- **A line only adds messages to the transcript.** -/
theorem runLine_growsTranscript (text : String) : GrowsTranscript (i.runLine text) := by
  refine .bind (runChat_growsTranscript lawful text) fun output => ?_
  refine .bind (followByThemselves_growsTranscript lawful _) fun links => ?_
  exact .bind (followQueued_growsTranscript lawful _) fun later => .pure _

omit lawful

/-! ## One line -/

/-- The messages that are delivered while a line runs: what it adds to the transcript. -/
def delivered (i : Interpreter) (text : String) (t : Table) : List ChatMessage :=
  (i.runLine text t).2.campaign.transcript.drop t.campaign.transcript.length

/-- A line is answered by taking the messages out of the transcript that it has led to. -/
theorem send_apply (i : Interpreter) (text : String) (t : Table) :
    i.send text t =
      match i.runLine text t with
      | (.ok (output, links), u) => (.ok ⟨output, links, u.campaign.transcript⟩,
          { u with campaign := { u.campaign with transcript := [] } })
      | (.error e, u) => (.error e, u) := by
  have hsend : i.send text = (do
      let r ← i.runLine text
      pure ⟨r.1, r.2, ← TableM.drain⟩) := by
    simp only [send, runLine, bind_assoc, pure_bind]
  rw [hsend, TableM.bind_apply]
  rcases i.runLine text t with ⟨end_, u⟩
  cases end_ <;> rfl

include lawful

/-- The transcript at the end of a line, before the answer: what was there, and what was delivered. -/
theorem transcript_runLine (text : String) (t : Table) :
    (i.runLine text t).2.campaign.transcript = t.campaign.transcript ++ i.delivered text t :=
  (List.prefix_iff_eq_append.1 (runLine_growsTranscript lawful text t)).symm

variable {text : String} {t : Table}

/-- **A reply carries what the line found in the transcript**, and then what was delivered while it
    ran.  Nothing is left for the next one. -/
theorem messages_send {reply : ChatReply} (h : (i.send text t).1 = .ok reply) :
    reply.messages = t.campaign.transcript ++ i.delivered text t ∧
      (i.send text t).2.campaign.transcript = [] := by
  have hrun := transcript_runLine lawful text t
  rw [send_apply] at h ⊢
  rcases hline : i.runLine text t with ⟨end_, u⟩
  rw [hline] at h hrun
  cases end_ with
  | error e => cases h
  | ok r =>
    cases h
    exact ⟨hrun, rfl⟩

/-- **A failed line leaves its messages in the transcript.** -/
theorem transcript_of_failed {e : Interrupt} (h : (i.send text t).1 = .error e) :
    (i.send text t).2.campaign.transcript = t.campaign.transcript ++ i.delivered text t := by
  have hrun := transcript_runLine lawful text t
  rw [send_apply] at h ⊢
  rcases hline : i.runLine text t with ⟨end_, u⟩
  rw [hline] at h hrun
  cases end_ with
  | error e => exact hrun
  | ok r => cases h

omit lawful

/-! ## Many lines -/

end Interpreter

/-- A line of chat and what came of it. -/
structure Exchange where
  line : String
  /-- The messages that were delivered while the line ran. -/
  delivered : List ChatMessage
  answer : Except Interrupt ChatReply

namespace Exchange

/-- The line was answered. -/
def Answered (x : Exchange) : Prop := ∃ reply, x.answer = .ok reply

/-- If there is a reply, it carries the messages of its own line, and no others. -/
def OwnMessages (x : Exchange) : Prop := ∀ reply, x.answer = .ok reply → reply.messages = x.delivered

instance : (x : Exchange) → Decidable x.Answered
  | ⟨_, _, .error _⟩ => .isFalse nofun
  | ⟨_, _, .ok reply⟩ => .isTrue ⟨reply, rfl⟩

instance : (x : Exchange) → Decidable x.OwnMessages
  | ⟨_, _, .error _⟩ => .isTrue nofun
  | ⟨_, delivered, .ok reply⟩ =>
    decidable_of_iff (reply.messages = delivered) ⟨fun h _ heq => Except.ok.inj heq ▸ h, fun h => h _ rfl⟩

end Exchange

/-- What failed lines have left in the transcript for the next reply, behind the messages `kept` that
    were there before them. -/
def leftover (kept : List ChatMessage) : List Exchange → List ChatMessage
  | [] => kept
  | ⟨_, delivered, .error _⟩ :: xs => leftover (kept ++ delivered) xs
  | ⟨_, _, .ok _⟩ :: xs => leftover [] xs

namespace Interpreter

variable {i : Interpreter} (lawful : ∀ b ∈ i.registry.entries, Builtin.Lawful b)

/-- Lines that are sent one after the other, whether or not they fail. -/
def converse (i : Interpreter) : List String → Table → List Exchange
  | [], _ => []
  | line :: lines, t =>
    ⟨line, i.delivered line t, (i.send line t).1⟩ :: i.converse lines (i.send line t).2

include lawful

/-- **A reply begins with what the failed lines before it have left.** -/
theorem messages_converse {lines : List String} {t : Table} {before after : List Exchange} {x : Exchange}
    (hx : i.converse lines t = before ++ x :: after) {reply : ChatReply} (hreply : x.answer = .ok reply) :
    reply.messages = leftover t.campaign.transcript before ++ x.delivered := by
  induction lines generalizing t before with
  | nil => exact absurd hx.symm (List.append_ne_nil_of_right_ne_nil _ (List.cons_ne_nil _ _))
  | cons line lines ih =>
    rw [converse] at hx
    cases before with
    | nil =>
      obtain ⟨rfl, -⟩ := List.cons.inj hx
      exact (messages_send lawful hreply).1
    | cons y before =>
      obtain ⟨rfl, htail⟩ := List.cons.inj hx
      have hrest := ih htail
      rcases hanswer : (i.send line t).1 with e | earlier
      · rw [transcript_of_failed lawful hanswer] at hrest
        exact hrest
      · rw [(messages_send lawful hanswer).2] at hrest
        exact hrest

/-- All replies carry their own messages alone if the first reply, should there be one, finds an empty
    transcript, and no failed line leaves a message to a reply behind it. -/
theorem ownMessages_converse_iff (lines : List String) (t : Table) :
    (∀ x ∈ i.converse lines t, x.OwnMessages) ↔
      (t.campaign.transcript = [] ∨ ∀ x ∈ i.converse lines t, ¬x.Answered) ∧
        (i.converse lines t).Pairwise fun x y => ¬x.Answered → y.Answered → x.delivered = [] := by
  induction lines generalizing t with
  | nil => simp [converse]
  | cons line lines ih =>
    have hrest := ih (i.send line t).2
    rw [converse, List.forall_mem_cons, List.forall_mem_cons, List.pairwise_cons, hrest]
    rcases hanswer : (i.send line t).1 with e | reply
    · -- the line fails: what it has delivered is left for the first answered line behind it
      have hfailed : ¬(⟨line, i.delivered line t, .error e⟩ : Exchange).Answered :=
        fun ⟨_, h⟩ => nomatch h
      have hown : (⟨line, i.delivered line t, .error e⟩ : Exchange).OwnMessages :=
        fun _ h => nomatch h
      have hhead : (∀ y ∈ i.converse lines (i.send line t).2, y.Answered → i.delivered line t = []) ↔
          i.delivered line t = [] ∨ ∀ y ∈ i.converse lines (i.send line t).2, ¬y.Answered := by
        by_cases h : i.delivered line t = [] <;> simp [h]
      rw [transcript_of_failed lawful hanswer, List.append_eq_nil_iff]
      simp only [hfailed, hown, not_false_eq_true, true_and, true_imp_iff, hhead]
      rw [and_or_right, and_assoc]
    · -- the line is answered: its reply takes all messages along
      have hanswered : (⟨line, i.delivered line t, .ok reply⟩ : Exchange).Answered := ⟨reply, rfl⟩
      have hown : (⟨line, i.delivered line t, .ok reply⟩ : Exchange).OwnMessages ↔
          t.campaign.transcript = [] := by
        have hmessages := (messages_send lawful hanswer).1
        constructor
        · intro h
          exact List.append_left_eq_self.1 (hmessages.symm.trans (h reply rfl))
        · rintro h _ ⟨⟩
          rw [hmessages, h, List.nil_append]
      rw [(messages_send lawful hanswer).2]
      simp only [hanswered, hown, not_true_eq_false, false_and, or_false, true_or, true_and,
        false_implies, implies_true]

omit lawful

/-- **Whose messages a reply carries**, for a table whose transcript is empty at the start.  A reply
    begins with the messages that were delivered by the failed lines since the reply before it; its own
    messages follow.  So all replies carry their own messages alone exactly if no failed line that has
    delivered something has an answered line behind it. -/
theorem ownMessages_iff (config : Config) (depth : Nat) (lines : List String) (t : Table)
    (empty : t.campaign.transcript = []) :
    let i : Interpreter := ⟨config, .builtins, depth⟩
    (∀ before x after reply, i.converse lines t = before ++ x :: after → x.answer = .ok reply →
      reply.messages = leftover [] before ++ x.delivered) ∧
    ((∀ x ∈ i.converse lines t, x.OwnMessages) ↔
      (i.converse lines t).Pairwise fun x y => ¬x.Answered → y.Answered → x.delivered = []) := by
  intro i
  have lawful : ∀ b ∈ i.registry.entries, Builtin.Lawful b := Registry.builtins_lawful
  constructor
  · intro before x after reply hx hreply
    have hmessages := messages_converse lawful hx hreply
    rw [empty] at hmessages
    exact hmessages
  · rw [ownMessages_converse_iff lawful, empty]
    simp only [true_or, true_and]

end Interpreter

/-- A table at which nothing has been said yet. -/
def tavern : Table := .ofCampaign (.demo "Gina" ⟨1⟩ ⟨2⟩) ⟨0⟩

/-- Gina may use all functions from chat. -/
def tavernConfig : Config := { Config.forPlayer "Gina" with trustChat := true }

/-- Two lines that fail, one of them behind a message, with an answered line in front and one behind. -/
def tavernLines : List String :=
  ["[h: broadcast('come in')]", "[h: assert(0, 'no')]", "[h: broadcast('hush')][h: assert(0, 'no')]", "well"]

/-- The last reply carries the message of the failed line. -/
theorem ownMessages_iff_tavern :
    let i : Interpreter := ⟨tavernConfig, .builtins, 3⟩
    tavern.campaign.transcript = [] ∧
    (i.converse tavernLines tavern).map (fun x => (x.delivered.map ChatMessage.text,
        x.answer.toOption.map fun reply => reply.messages.map ChatMessage.text)) =
      [(["come in"], some ["come in"]), ([], none), (["hush"], none), ([], some ["hush"])] ∧
    (∀ before x after reply, i.converse tavernLines tavern = before ++ x :: after → x.answer = .ok reply →
      reply.messages = leftover [] before ++ x.delivered) ∧
    ((∀ x ∈ i.converse tavernLines tavern, x.OwnMessages) ↔
      (i.converse tavernLines tavern).Pairwise fun x y => ¬x.Answered → y.Answered → x.delivered = []) := by
  intro i
  have hempty : tavern.campaign.transcript = [] := rfl
  obtain ⟨hmessages, hiff⟩ := Interpreter.ownMessages_iff tavernConfig 3 tavernLines tavern hempty
  exact ⟨hempty, by decide +kernel, hmessages, hiff⟩

/-- **A reply can carry messages of a line before it**: those of a line that failed. -/
theorem messages_of_failed_line :
    ¬∀ (config : Config) (depth : Nat) (lines : List String) (t : Table), t.campaign.transcript = [] →
      ∀ x ∈ (⟨config, .builtins, depth⟩ : Interpreter).converse lines t, x.OwnMessages := by
  intro h
  have hown := h tavernConfig 3 ["[h: broadcast('hush')][h: assert(0, 'no')]", "well"] tavern rfl
  exact absurd hown (by decide +kernel)

end Tabletop
