import Tsunagari.Bridge.Proofs.RefinementProofs
import Tsunagari.Bridge.Sample
import Tsunagari.Collector.Proofs.QuorumProofs

/-!
# Proofs: when the count is a count of distinct signers

The signature list keeps one element for every delivery, so that it holds at most one signature of
each node exactly when no node that gets to the push is handed the event twice.
-/

namespace Tsunagari

open Async (CanReach)

variable {δ ν : Type} [DecidableEq δ] [DecidableEq ν] {P : Platform} {cfg : Config} {env : Env}
  {e : BridgeEvent} {p : Plan} {nodeOf : δ → ν} {keys : ν → Node}

/-- The node's handler of the event gets to the push: the lookups and the signing succeed. -/
def BridgeEvent.Pushes (P : Platform) (cfg : Config) (e : BridgeEvent) (node : Node) : Prop :=
  (e.plan P cfg).isOk ∧ (e.sign P cfg node).isOk

instance (e : BridgeEvent) (node : Node) : Decidable (e.Pushes P cfg node) :=
  inferInstanceAs (Decidable (_ ∧ _))

/-- The nodes whose signatures are in the list of the event. -/
def World.signers (w : World δ) (nodeOf : δ → ν) (message : String) : List ν :=
  (w.store.lists message).map fun x => nodeOf x.1

omit [DecidableEq ν] in
/-- The first two deliveries of a node that gets to the push both end up in the list. -/
theorem reach_both (env : Env) {d d' : δ} (hne : d' ≠ d) (hpush : e.Pushes P cfg (keys (nodeOf d)))
    (hnode : nodeOf d' = nodeOf d) :
    CanReach (World.step P cfg env) Action.Succeeds
      (World.init fun d => e.handle P cfg (keys (nodeOf d))) fun w =>
        w.signers nodeOf (e.message P cfg) = [nodeOf d, nodeOf d] ∧
          ∀ entry ∈ w.trace, entry.op ≠ .del (e.message P cfg) := by
  obtain ⟨hplan, hsign⟩ := hpush
  obtain ⟨p, hp⟩ : ∃ p, e.plan P cfg = .ok p := by
    cases h : e.plan P cfg with
    | error err => rw [h] at hplan; cases hplan
    | ok p => exact ⟨p, rfl⟩
  obtain ⟨signature, hs⟩ : ∃ signature, e.sign P cfg (keys (nodeOf d)) = .ok signature := by
    cases h : e.sign P cfg (keys (nodeOf d)) with
    | error err => rw [h] at hsign; cases hsign
    | ok signature => exact ⟨signature, rfl⟩
  have hhandle : e.handle P cfg (keys (nodeOf d)) = p.start signature := by
    rw [e.handle_eq, hp, hs]
    rfl
  have hmsg := (Plan.of_plan hp).message
  have hfirst : (World.init fun d => e.handle P cfg (keys (nodeOf d))).handlers d =
      ⟨p.start signature, []⟩ := by
    rw [← hhandle]
    rfl
  refine (World.reach_push P cfg env hfirst).bind fun w₁ ⟨hstore, hhandlers, htrace⟩ => ?_
  have hh : w₁.handlers d' = ⟨p.start signature, []⟩ := by
    rw [hhandlers d' hne, ← hhandle, ← hnode]
    rfl
  refine (World.reach_push P cfg env hh).bind fun w₂ ⟨hstore₂, _, htrace₂⟩ =>
    .here ⟨?_, fun entry hmem => ?_⟩
  · rw [World.signers, hstore₂, hstore, ← hmsg, Store.push_self, Store.push_self]
    simp [World.init, hnode]
  · rcases htrace₂ entry hmem with h | h
    · rcases htrace entry h with h | h
      · cases h
      · rw [h]; simp
    · rw [h]; simp

omit [DecidableEq ν] in
/-- The signers of an event, when no node that gets to the push is handed it twice: they are
different, and a handler adds the job only when there are as many as the threshold. -/
theorem signers_of_run {l : List (Action δ)} {w : World δ}
    (hunique : ∀ d d', nodeOf d = nodeOf d' → e.Pushes P cfg (keys (nodeOf d)) → d = d')
    (hl : ∀ a ∈ l, a.SucceedsOrStops)
    (hrun : World.run P cfg env (World.init fun d => e.handle P cfg (keys (nodeOf d))) l = some w)
    (hdel : ∀ entry ∈ w.trace, entry.op ≠ .del (e.message P cfg)) :
    (w.signers nodeOf (e.message P cfg)).Nodup ∧
      ∀ site, e.site P cfg = .ok site → w.enqueuers (e.jobId P cfg) ≠ [] →
        env.threshold site ≤ (w.signers nodeOf (e.message P cfg)).length := by
  cases hplan : e.plan P cfg with
  | error err =>
    have hw := run_of_throw (fun d => ⟨err, by rw [e.handle_eq, hplan]; rfl⟩) hrun
    subst hw
    exact ⟨List.nodup_nil, fun site _ h => absurd rfl h⟩
  | ok p =>
    obtain ⟨t, ht⟩ : ∃ t, ∀ site, p.site = .ok site → env.threshold site = t := by
      cases hsite : p.site with
      | error err => exact ⟨0, fun site h => by cases h⟩
      | ok site => exact ⟨env.threshold site, fun site' h => by cases h; rfl⟩
    obtain ⟨s, hsteps, htr⟩ := Tracks.of_run (Deliveries.all hplan ht) hl hrun
    have hmsg := (Plan.of_plan hplan).message
    have hsigners : w.signers nodeOf (e.message P cfg) = s.list.map nodeOf := by
      rw [World.signers, ← hmsg, htr.list, List.map_map]
      rfl
    have hfresh : ¬ s.Drained := by
      intro hs
      obtain ⟨entry, hmem, hop⟩ := htr.drained hs
      exact hdel entry hmem (hmsg ▸ hop)
    rw [hsigners]
    refine ⟨List.Nodup.map_on (fun d hd d' _ h => hunique d d' h ⟨?_, ?_⟩)
      (Collector.distinct_of_steps hsteps).nodup, fun site hsite henq => ?_⟩
    · rw [hplan]; rfl
    · have hlive := (Collector.live_of_steps hsteps).1 d hd
      rwa [signs, Bool.true_and] at hlive
    · rw [BridgeEvent.site, hplan] at hsite
      rw [← (Plan.of_plan hplan).jobId, htr.enqueuers] at henq
      rw [ht site hsite, List.length_map]
      rcases Nat.eq_zero_or_pos t with rfl | hpos
      · exact Nat.zero_le _
      · exact Collector.quorum_of_added hpos hsteps hfresh henq

/-- **The list holds at most one signature of each node, and a job is added only when as many nodes
as the threshold have signed, in every run before the list is emptied, exactly when no node that
gets to the push is handed the event twice.** -/
theorem signers_iff :
    (∀ (l : List (Action δ)) (w : World δ), (∀ a ∈ l, a.SucceedsOrStops) →
        World.run P cfg env (World.init fun d => e.handle P cfg (keys (nodeOf d))) l = some w →
        (∀ entry ∈ w.trace, entry.op ≠ .del (e.message P cfg)) →
          (∀ v, (w.signers nodeOf (e.message P cfg)).count v ≤ 1) ∧
          ∀ site, e.site P cfg = .ok site → w.enqueuers (e.jobId P cfg) ≠ [] →
            env.threshold site ≤ (w.signers nodeOf (e.message P cfg)).toFinset.card) ↔
      ∀ d d', nodeOf d = nodeOf d' → e.Pushes P cfg (keys (nodeOf d)) → d = d' := by
  constructor
  · intro h d d' hnode hpush
    by_contra hne
    obtain ⟨l, w, hl, hrun, hsigners, hdel⟩ :=
      reach_both env (fun he => hne he.symm) hpush hnode.symm
    have hcount := (h l w (fun a ha => (hl a ha).orStops) hrun hdel).1 (nodeOf d)
    rw [hsigners] at hcount
    simp at hcount
  · intro hunique l w hl hrun hdel
    obtain ⟨hnodup, hquorum⟩ := signers_of_run hunique hl hrun hdel
    refine ⟨List.nodup_iff_count_le_one.1 hnodup, fun site hsite henq => ?_⟩
    rw [List.toFinset_card_of_nodup hnodup]
    exact hquorum site hsite henq

/-- A single node is handed the event twice, and adds the job although the threshold is two. -/
theorem not_signers_sample :
    ¬ ∀ (l : List (Action (Fin 2))) (w : World (Fin 2)), (∀ a ∈ l, a.SucceedsOrStops) →
      World.run Sample.platform Sample.config (Sample.env 2 2)
          (World.init fun _ => (Sample.lock 137).handle Sample.platform Sample.config
            (Sample.node 0)) l = some w →
        (∀ entry ∈ w.trace, entry.op ≠
          .del ((Sample.lock 137).message Sample.platform Sample.config)) →
          (∀ v, (w.signers (fun _ => ()) ((Sample.lock 137).message Sample.platform
            Sample.config)).count v ≤ 1) ∧
          ∀ site, (Sample.lock 137).site Sample.platform Sample.config = .ok site →
            w.enqueuers ((Sample.lock 137).jobId Sample.platform Sample.config) ≠ [] →
              (Sample.env 2 2).threshold site ≤ (w.signers (fun _ => ())
                ((Sample.lock 137).message Sample.platform Sample.config)).toFinset.card := by
  intro h
  have heval : (World.run Sample.platform Sample.config (Sample.env 2 2)
      (World.init fun _ : Fin 2 => (Sample.lock 137).handle Sample.platform Sample.config
        (Sample.node 0))
      (Sample.push 0 ++ Sample.push 1 ++ Sample.count 0 ++ Sample.enqueue 0)).map
      (fun w => (w.enqueuers ((Sample.lock 137).jobId Sample.platform Sample.config),
        (w.signers (fun _ => ()) ((Sample.lock 137).message Sample.platform Sample.config)),
        decide (∀ entry ∈ w.trace, entry.op ≠
          .del ((Sample.lock 137).message Sample.platform Sample.config)))) =
      some ([0], [(), ()], true) := by decide +kernel
  obtain ⟨w, hrun, heq⟩ := Option.map_eq_some_iff.1 heval
  simp only [Prod.mk.injEq, decide_eq_true_eq] at heq
  obtain ⟨henq, hsigners, hdel⟩ := heq
  have hquorum := (h _ w (fun a ha => Action.Succeeds.orStops (by revert a; decide)) hrun hdel).2
    (.evm 137) (by decide +kernel) (by rw [henq]; simp)
  rw [hsigners] at hquorum
  exact absurd hquorum (by decide)

end Tsunagari
