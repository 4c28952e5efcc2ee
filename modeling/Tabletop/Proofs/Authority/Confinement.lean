import Mathlib.Data.List.Forall2
import Tabletop.Proofs.Authority.Run

/-
  Macros of a campaign without trusted tokens are confined to their subject.

  1. **The campaign** — `HasNoTrust`: ids tell the tokens apart, and none of the tokens is trusted.
     Whatever text a macro starts then lies on an untrusted token, so no trust comes in on the way.

  2. **The bound** — `Table.Confined subject t u`: what an untrusted macro may have done when it turned
     `t` into `u`.  The functions, the queue, the chat, the players, the selection and the round are
     the same; in the turn order only entries of the subject came or went; every token but the subject
     is the same, and the subject still has its id, its owners and its buttons.

  3. **The argument** — every change that needs no trust is confined, `Confined` is transitive, and it
     keeps `HasNoTrust`, because trust depends on owners and players only.  So it holds of courses, by
     induction, and of runs, which are courses.
-/
namespace Tabletop

/-! ## Campaigns without trust -/

/-- Ids tell the tokens apart, and no token is trusted. -/
structure Campaign.HasNoTrust (c : Campaign) : Prop where
  nodup : (c.tokens.map Token.id).Nodup
  untrusted : ∀ t ∈ c.tokens, c.trustsToken t = false

namespace Campaign

variable {c : Campaign}

/-- Text on a token is not trusted, whether there is such a token or not. -/
theorem HasNoTrust.trusts_token (h : c.HasNoTrust) (holder : TokenId) :
    c.trusts (.token holder) = false := by
  show (c.token? holder).any c.trustsToken = false
  cases ht : c.token? holder with
  | none => rfl
  | some t => exact h.untrusted t (mem_of_token?_eq_some ht).1

/-- Trust looks at the owners of a token and at the players. -/
theorem trustsToken_congr {d : Campaign} (hplayers : d.players = c.players) {t u : Token}
    (h : t.SameHolder u) : d.trustsToken u = c.trustsToken t := by
  unfold trustsToken
  have hgm : d.isGm = c.isGm := by
    funext player
    unfold isGm
    rw [hplayers]
  rw [h.ownedByAll, h.owners, hgm]

end Campaign

/-! ## The bound -/

/-- The entries of all tokens but the subject, in order. -/
def InitiativeList.entriesOfOthers (l : InitiativeList) (subject : Option TokenId) :
    List InitiativeEntry :=
  l.entries.filter fun e => some e.token != subject

/-- What may become of a token: the subject keeps its holder, any other token stays as it is. -/
def Token.Confined (subject : Option TokenId) (old new : Token) : Prop :=
  old.SameHolder new ∧ (subject ≠ some old.id → new = old)

/-- What an untrusted macro with this subject may have done to a table. -/
structure Table.Confined (subject : Option TokenId) (t u : Table) : Prop where
  functions : u.functions = t.functions
  queue : u.queue = t.queue
  name : u.campaign.name = t.campaign.name
  transcript : u.campaign.transcript = t.campaign.transcript
  players : u.campaign.players = t.campaign.players
  selected : u.campaign.selected = t.campaign.selected
  impersonated : u.campaign.impersonated = t.campaign.impersonated
  round : u.campaign.initiative.round = t.campaign.initiative.round
  entries : u.campaign.initiative.entriesOfOthers subject =
    t.campaign.initiative.entriesOfOthers subject
  tokens : List.Forall₂ (Token.Confined subject) t.campaign.tokens u.campaign.tokens

namespace Token.Confined

variable {subject : Option TokenId} {t u v : Token}

theorem refl (subject : Option TokenId) (t : Token) : t.Confined subject t := ⟨.refl t, fun _ => rfl⟩

theorem trans (h : t.Confined subject u) (h' : u.Confined subject v) : t.Confined subject v := by
  refine ⟨h.1.trans h'.1, fun hne => ?_⟩
  have hu : u = t := h.2 hne
  subst hu
  exact h'.2 hne

/-! Token by token. -/

variable {ts us vs : List Token}

theorem all_refl (subject : Option TokenId) (ts : List Token) :
    List.Forall₂ (Token.Confined subject) ts ts :=
  List.forall₂_same.2 fun t _ => refl subject t

theorem all_trans (h : List.Forall₂ (Token.Confined subject) ts us)
    (h' : List.Forall₂ (Token.Confined subject) us vs) :
    List.Forall₂ (Token.Confined subject) ts vs := by
  induction h generalizing vs with
  | nil => exact h'
  | cons hx _ ih =>
    cases h' with
    | cons hy hys => exact .cons (hx.trans hy) (ih hys)

/-- No token comes or goes, and the ids stay in their order. -/
theorem map_id_eq (h : List.Forall₂ (Token.Confined subject) ts us) :
    us.map Token.id = ts.map Token.id := by
  induction h with
  | nil => rfl
  | cons hx _ ih => rw [List.map_cons, List.map_cons, hx.1.id, ih]

/-- Every token comes from one that was there before. -/
theorem exists_old (h : List.Forall₂ (Token.Confined subject) ts us) (hu : u ∈ us) :
    ∃ t ∈ ts, t.Confined subject u := by
  induction h with
  | nil => exact absurd hu List.not_mem_nil
  | cons hx _ ih =>
    -- the token in front comes from the one in front; all others from the rest
    rcases List.mem_cons.1 hu with rfl | hu
    · exact ⟨_, List.mem_cons_self .., hx⟩
    · obtain ⟨t, ht, htu⟩ := ih hu
      exact ⟨t, List.mem_cons_of_mem _ ht, htu⟩

end Token.Confined

namespace Table.Confined

variable {subject : Option TokenId} {t u v : Table}

theorem refl (subject : Option TokenId) (t : Table) : t.Confined subject t :=
  ⟨rfl, rfl, rfl, rfl, rfl, rfl, rfl, rfl, rfl, Token.Confined.all_refl subject _⟩

theorem trans (h : t.Confined subject u) (h' : u.Confined subject v) : t.Confined subject v where
  functions := h'.functions.trans h.functions
  queue := h'.queue.trans h.queue
  name := h'.name.trans h.name
  transcript := h'.transcript.trans h.transcript
  players := h'.players.trans h.players
  selected := h'.selected.trans h.selected
  impersonated := h'.impersonated.trans h.impersonated
  round := h'.round.trans h.round
  entries := h'.entries.trans h.entries
  tokens := Token.Confined.all_trans h.tokens h'.tokens

/-- A confined macro brings no trust into the campaign. -/
theorem hasNoTrust (h : t.Confined subject u) (ht : t.campaign.HasNoTrust) :
    u.campaign.HasNoTrust := by
  constructor
  · rw [Token.Confined.map_id_eq h.tokens]
    exact ht.nodup
  · intro y hy
    -- the token was there before under the same holder, who was not trusted
    obtain ⟨x, hx, hxy⟩ := Token.Confined.exists_old h.tokens hy
    rw [Campaign.trustsToken_congr h.players hxy.1]
    exact ht.untrusted x hx

end Table.Confined

/-! ## Changes that need no trust -/

/-- Storing a new state of the subject changes the token of the subject only: no other one has its
    id. -/
theorem Campaign.replaceFirst_confined {subject : Option TokenId} {old new : Token}
    (same : old.SameHolder new) (hsubject : subject = some old.id) :
    ∀ {ts : List Token}, (ts.map Token.id).Nodup → old ∈ ts →
      List.Forall₂ (Token.Confined subject) ts (replaceFirst new ts)
  | [], _, hmem => absurd hmem List.not_mem_nil
  | t :: ts, hnodup, hmem => by
    rw [List.map_cons, List.nodup_cons] at hnodup
    unfold replaceFirst
    split
    · next hid =>
      -- the first token with this id is the only one
      have ht : t = old := by
        rcases List.mem_cons.1 hmem with h | h
        · exact h.symm
        · have hold : t.id = old.id := hid.trans same.id
          rw [hold] at hnodup
          exact absurd (List.mem_map_of_mem h) hnodup.1
      subst ht
      exact .cons ⟨same, fun hne => absurd hsubject hne⟩ (Token.Confined.all_refl subject ts)
    · next hid =>
      have hmem' : old ∈ ts := by
        rcases List.mem_cons.1 hmem with h | h
        · exact absurd (by rw [← h, same.id]) hid
        · exact h
      exact .cons (.refl subject t) (replaceFirst_confined same hsubject hnodup.2 hmem')

namespace InitiativeList

/-- Joining the turn order adds an entry of the subject. -/
theorem entriesOfOthers_add (l : InitiativeList) (id : TokenId) (initiative : Option String) :
    (l.add id initiative).entriesOfOthers (some id) = l.entriesOfOthers (some id) := by
  simp [entriesOfOthers, add]

/-- Leaving it takes out entries of the subject. -/
theorem entriesOfOthers_remove (l : InitiativeList) (id : TokenId) :
    (l.remove id).entriesOfOthers (some id) = l.entriesOfOthers (some id) := by
  simp only [entriesOfOthers, remove, List.filter_filter]
  refine List.filter_congr fun e _ => ?_
  simp

end InitiativeList

namespace Table

/-- **One change.**  Of the changes of a macro those are confined that need no trust. -/
theorem Change.confined {a : Authority} {t u : Table} (h : Change a t u) (ha : a.trusted = false)
    (ht : t.campaign.HasNoTrust) : t.Confined a.subject u := by
  have hno : ¬ a.trusted = true := by rw [ha]; exact Bool.false_ne_true
  have hrefl := Confined.refl a.subject t
  cases h with
  | roll dice => exact { hrefl with }
  | store mem same may =>
    have hsubject := may.resolve_left hno
    exact { hrefl with tokens := Campaign.replaceFirst_confined same hsubject ht.nodup mem }
  -- the subject joins and leaves the turn order; the entries of others stay
  | join is initiative =>
    refine { hrefl with entries := ?_ }
    rw [is]
    exact InitiativeList.entriesOfOthers_add _ _ _
  | leave is =>
    refine { hrefl with entries := ?_ }
    rw [is]
    exact InitiativeList.entriesOfOthers_remove _ _
  -- all other changes need trust
  | setRound may => exact absurd may hno
  | next may => exact absurd may hno
  | deliver may => exact absurd may hno
  | define may => exact absurd may hno
  | enqueue may => exact absurd may hno

/-- **A whole course.**  The macros that are started on the way find no trust either, and run for the
    same subject. -/
theorem Course.confined {a : Authority} {t u : Table} (h : Course a t u) (ha : a.trusted = false)
    (ht : t.campaign.HasNoTrust) : t.Confined a.subject u := by
  induction h with
  | nothing a t => exact .refl a.subject t
  | change _ last ih =>
    have hbefore := ih ha ht
    exact hbefore.trans (last.confined ha (hbefore.hasNoTrust ht))
  | start _ holder subject may _ ih ih_inner =>
    have hbefore := ih ha ht
    have hthere := hbefore.hasNoTrust ht
    have hsubject := may.resolve_left (by rw [ha]; exact Bool.false_ne_true)
    -- the macro that is started has a token as its origin, and no token is trusted
    have hinner := ih_inner (hthere.trusts_token holder) hthere
    rw [hsubject] at hinner
    exact hbefore.trans hinner

end Table

/-! ## Runs -/

/-- **Confinement of untrusted macros.**  In a campaign without trusted tokens, text that does not come
    from a privileged caller does no more than `Confined` allows, whatever functions are defined and
    however the run ends. -/
theorem Interpreter.run_untrusted_confined (config : Config) (depth : Nat) (body : String)
    (r : RunRequest) (t : Table) (ids : (t.campaign.tokens.map Token.id).Nodup)
    (untrusted : ∀ x ∈ t.campaign.tokens, t.campaign.trustsToken x = false)
    (origin : r.origin ≠ .unattached true) :
    t.Confined r.subject ((⟨config, .builtins, depth⟩ : Interpreter).run body r t).2 := by
  have hnone : t.campaign.HasNoTrust := ⟨ids, untrusted⟩
  -- text from a token is not trusted, as no token is; other text is not by its origin
  have htrust : t.campaign.trusts r.origin = false := by
    cases horigin : r.origin with
    | token holder => exact hnone.trusts_token holder
    | unattached privileged =>
      cases privileged with
      | false => rfl
      | true => exact absurd horigin origin
  have hcourse := Interpreter.run_course (i := ⟨config, .builtins, depth⟩) Registry.builtins_lawful
    body r t
  exact hcourse.confined htrust hnone

/-- A table with a hero of a player and an ogre of everyone. -/
def village : Table :=
  .ofCampaign { Campaign.new "Village" with
    players := [⟨"Gina", .gm⟩, ⟨"Pat", .player⟩]
    tokens := [{ Token.named ⟨1⟩ "Hero" with owners := .ofNames ["Pat"] },
      { Token.named ⟨2⟩ "Ogre" with ownedByAll := true }] } ⟨0⟩

/-- The ogre's macro, run for the hero, heals the hero and then fails to hurt the ogre. -/
def ogreMacro : String := "[h: setProperty('HP', 3)][h: setProperty('HP', 0, 'Ogre')]"

/-- A run that changes its subject, stops at the other token, and is confined. -/
theorem run_untrusted_confined_village :
    (((⟨.default, .builtins, 3⟩ : Interpreter).run ogreMacro
        (.ofText (.token ⟨2⟩) "Pat" (some ⟨1⟩)) village).2.campaign.tokens.map (·.property? "HP")) =
      [some "3", none] ∧
    village.Confined (some ⟨1⟩) ((⟨.default, .builtins, 3⟩ : Interpreter).run ogreMacro
        (.ofText (.token ⟨2⟩) "Pat" (some ⟨1⟩)) village).2 :=
  ⟨by decide +kernel,
    Interpreter.run_untrusted_confined .default 3 ogreMacro (.ofText (.token ⟨2⟩) "Pat" (some ⟨1⟩))
      village (by decide +kernel) (by decide +kernel) (by decide)⟩

end Tabletop
