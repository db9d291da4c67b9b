import Switchboard.Proofs.Desk.Ballot
import Switchboard.Proofs.Registry

/-!
The winner of a round. The participants have different places in the configuration, so that among
their answers there is one that beats all others; which one it is does not depend on the order in
which they come back.
-/

namespace Switchboard

/-- The answers that are voted on. -/
def Panel.candidates (w : Panel) (voices : List Voice) : List Candidate :=
  voices.filterMap (·.candidate? w.registry)

namespace Desk

section Voices

variable {w : Panel} {now now' : Nat} {d d' : Desk} {log log' : Reports}
  {voices voices' : List Voice}

theorem Books.voices_nodup (h : Books w now d log [] voices) : voices.Nodup :=
  List.Nodup.of_map _ h.numbers_nodup

private theorem Books.mem_of_same (h : Books w now d log [] voices)
    (h' : Books w now' d' log' [] voices') (hn : w.chain.ids.Nodup)
    (same : ∀ p ∈ w.chain.ids, log.ends p w.ticket = log'.ends p w.ticket) {v : Voice}
    (hv : v ∈ voices) : v ∈ voices' := by
  have hplace : (v.provider, v.number) ∈ w.chain.ids.zipIdx :=
    h.places.mem_iff.mp (List.mem_map_of_mem (f := fun v => (v.provider, v.number)) hv)
  obtain ⟨v', hv', he⟩ := List.mem_map.mp (h'.places.mem_iff.mpr hplace)
  have hends := same v.provider (List.fst_mem_of_mem_zipIdx hplace)
  obtain ⟨number, provider, result⟩ := v
  obtain ⟨number', provider', result'⟩ := v'
  cases he
  rw [h.ends hn hv, h'.ends hn hv'] at hends
  cases hends
  exact hv'

/-- What a round has heard at its end is told by how its calls ended, but for the order. -/
theorem Books.voices_perm (h : Books w now d log [] voices)
    (h' : Books w now' d' log' [] voices') (hn : w.chain.ids.Nodup)
    (same : ∀ p ∈ w.chain.ids, log.ends p w.ticket = log'.ends p w.ticket) :
    voices.Perm voices' := by
  refine (List.perm_ext_iff_of_nodup h.voices_nodup h'.voices_nodup).mpr fun v => ⟨?_, ?_⟩
  · exact h.mem_of_same h' hn same
  · exact h'.mem_of_same h hn fun p hp => (same p hp).symm

theorem Books.candidates_providers (h : Books w now d log [] voices)
    (hn : w.chain.ids.Nodup) :
    ((w.candidates voices).map (·.answer.provider)).Nodup ∧
      ∀ c ∈ w.candidates voices, c.answer.provider ∈ w.chain.ids := by
  have hcomplete := h.accounted.complete
  have hproviders : (w.candidates voices).map (·.answer.provider) =
      ((returns voices).filter (·.2.isOk)).map (·.1) :=
    filterMap_candidate? w.registry fun v hv => (h.ended hv).2.source
  have hsub : ((w.candidates voices).map (·.answer.provider)).Sublist
      ((returns voices).map (·.1)) := by
    rw [hproviders]
    exact List.filter_sublist.map _
  refine ⟨hsub.nodup (hcomplete.nodup_iff.mpr hn), fun c hc => ?_⟩
  exact hcomplete.mem_iff.mp (hsub.subset (List.mem_map_of_mem hc))

/-- Every answer comes with the place of its provider. -/
theorem Books.candidates_position (h : Books w now d log [] voices) (hn : w.chain.ids.Nodup)
    (hknown : ∀ p ∈ w.chain.ids, p ∈ w.registry.ids) {c : Candidate}
    (hc : c ∈ w.candidates voices) : w.registry.position? c.answer.provider = some c.order := by
  have hmem := hknown _ ((h.candidates_providers hn).2 c hc)
  obtain ⟨i, hi⟩ := Option.isSome_iff_exists.mp (Registry.position?_isSome hmem)
  obtain ⟨v, -, hv⟩ := List.mem_filterMap.mp hc
  unfold Voice.candidate? at hv
  split at hv
  · cases hv
    simp only at hi ⊢
    rw [hi, Option.getD_some]
  · cases hv

theorem Books.candidates_orders (h : Books w now d log [] voices) (hn : w.chain.ids.Nodup)
    (hknown : ∀ p ∈ w.chain.ids, p ∈ w.registry.ids) :
    ((w.candidates voices).map (·.order)).Nodup := by
  have hproviders := (h.candidates_providers hn).1
  refine List.Nodup.map_on (fun a ha b hb he => ?_) (List.Nodup.of_map _ hproviders)
  refine List.inj_on_of_nodup_map hproviders ha hb ?_
  have hposition := h.candidates_position hn hknown ha
  rw [he] at hposition
  exact Registry.position?_inj hposition (h.candidates_position hn hknown hb)

/-- The calls of two rounds came to the same ends, in whatever order: they have one winner. -/
theorem Books.same_winner (h : Books w now d log [] voices)
    (h' : Books w now' d' log' [] voices') (hn : w.chain.ids.Nodup)
    (hknown : ∀ p ∈ w.chain.ids, p ∈ w.registry.ids)
    (same : ∀ p ∈ w.chain.ids, log.ends p w.ticket = log'.ends p w.ticket) :
    (w.candidates voices).Perm (w.candidates voices') ∧
      (w.conclusion voices).vote.map (·.winner) = (w.conclusion voices').vote.map (·.winner) := by
  have hperm : (w.candidates voices).Perm (w.candidates voices') :=
    (h.voices_perm h' hn same).filterMap _
  exact ⟨hperm, Vote.winner_perm (h.candidates_orders hn hknown) hperm⟩

end Voices

end Desk

namespace Shift

open Desk

/-- `a` and `b` answer at one moment, in one order or the other, and `c` fails. -/
def raced (d : Desk) (first second : Nat) : Option (Shift × Shift × Consensus) :=
  ((opened d).step 0 (.event (.consult 0 .general none greeting))).bind fun s₁ =>
  (s₁.run anything
    [(0, .event (.start ⟨0, 0⟩)), (0, .event (.start ⟨0, 1⟩)), (0, .event (.start ⟨0, 2⟩)),
      (200, .event (.call ⟨0, first⟩ (.attemptEnds (.ok ⟨"yes", some 0.9, none⟩)))),
      (200, .event (.call ⟨0, second⟩ (.attemptEnds (.ok ⟨"yes", some 0.9, none⟩)))),
      (300, .event (.call ⟨0, 2⟩ (.attemptEnds (.error (.status 500 "down")))))]).bind fun s₂ =>
  (agreement? 0 s₂.log).map fun o => (s₁, s₂, o)

/-- Three answers that come back the wrong way round; two of them are equally good. -/
def tied : List Candidate :=
  [⟨⟨"c", "no", some 0.5, 100, none, 1⟩, 1.0, 2⟩, ⟨⟨"b", "yes", some 0.9, 200, none, 1⟩, 1.0, 1⟩,
    ⟨⟨"a", "yes", some 0.9, 200, none, 1⟩, 1.0, 0⟩]

deriving instance DecidableEq for Except
deriving instance DecidableEq for Answer

end Shift

end Switchboard
