import Switchboard.Proofs.Desk.Deed
import Switchboard.Proofs.Lane.Fate

/-!
What holds at a desk whatever is done there, and what is done for one ticket leaves of another.
-/

namespace Switchboard

theorem Lane.Bystander.trans {p p' p'' : Option Phase} {before after : List Lane.Note}
    (h : Lane.Bystander p p' before) (h' : Lane.Bystander p' p'' after) :
    Lane.Bystander p p'' (before ++ after) := by
  cases h with
  | untouched => exact h'
  | granted =>
    cases h'
    exact .granted

theorem Monitor.get?_apply_isSome {m : Monitor} {id : String} (h : (m.get? id).isSome)
    (now : Nat) (op : Monitor.Op) : ((m.apply now op).get? id).isSome := by
  rw [Monitor.get?_apply]
  split
  · rwa [Option.isSome_map]
  · exact h

namespace Desk

/-- Every lane is that of its provider, and has a breaker. -/
structure Orderly (d : Desk) : Prop where
  lanes {p : String} {l : Lane} : d.lane? p = some l → l.Orderly ∧ l.provider = p
  watched {p : String} : (d.lane? p).isSome → (d.monitor.get? p).isSome

/-- These providers can all be called. -/
def Staffed (d : Desk) (ids : List String) : Prop :=
  ∀ p ∈ ids, (d.lane? p).isSome

/-- A provider and what its breaker was told, if it was told something. -/
def Report.record? : Report → Option (String × Bool)
  | .call p _ note => note.record?.map fun success => (p, success)
  | .ready _ | .roundOpens .. | .closed .. | .abandoned _ => none

def Reports.records (log : Reports) : List (String × Bool) :=
  log.filterMap Report.record?

@[simp] theorem Reports.records_append (before after : Reports) :
    records (before ++ after) = records before ++ records after :=
  List.filterMap_append

/-- The totals of the breakers count what was reported. -/
def Tallied (d : Desk) (log : Reports) : Prop :=
  ∀ p b, d.monitor.get? p = some b →
    b.totalSuccesses = log.records.count (p, true) ∧
      b.totalFailures = log.records.count (p, false)

/-- What the deeds of one ticket leave of another: its calls may be given slots. -/
structure Spared (t : Nat) (d : Desk) (reports : Reports) (d' : Desk) : Prop where
  ticket : d'.ticket? t = d.ticket? t
  calls (p : String) (n : Nat) :
    Lane.Bystander (d.phase? p ⟨t, n⟩) (d'.phase? p ⟨t, n⟩) (reports.on p ⟨t, n⟩)
  unsaid {r : Report} : r ∈ reports → r.ticket = t → r.isOwn = false

section Moved

variable {d : Desk} {p : String} {now : Nat} {id : CallId} {e : Lane.Event} {l l' : Lane}
  {b b' : Breaker} {notes : Lane.Notes}

theorem mem_reports {r : Report} (h : r ∈ Lane.Notes.reports p notes) : r.isOwn = false := by
  obtain ⟨n, -, rfl⟩ := List.mem_map.mp h
  rfl

theorem moved_bystander (hd : d.Orderly) (hl : d.lane? p = some l)
    (m : Lane.Move now id l b e l' b' notes) {p' : String} {i : CallId}
    (hne : ¬(p' = p ∧ i = id)) :
    Lane.Bystander (d.phase? p' i) ((d.withLane p l' b').phase? p' i)
      (Reports.on p' i (notes.reports p)) := by
  rw [phase?_withLane hl, Reports.on_reports]
  by_cases hp : p' = p
  · rw [if_pos hp, if_pos hp, hp, phase?_eq hl]
    exact m.bystander (hd.lanes hl).1 fun hi => hne ⟨hp, hi⟩
  · rw [if_neg hp, if_neg hp]
    exact .untouched

theorem records_reports (m : Lane.Move now id l b e l' b' notes) (ho : l.Orderly) :
    (Lane.Notes.reports p notes).records = (notes.records id).map fun success => (p, success) := by
  unfold Reports.records Lane.Notes.reports Lane.Notes.records
  have own (n : CallId × Lane.Note) (hn : n ∈ notes) := m.notes_own ho hn
  rw [List.filterMap_map, List.map_filterMap]
  exact Lane.Notes.filterMap_own own
    (fun n => n.2.record?.map fun success => (p, success)) fun _ => rfl

theorem count_told (told : List Bool) (p p' : String) (success : Bool) :
    (told.map fun s => (p, s)).count (p', success) = if p' = p then told.count success else 0 := by
  induction told with
  | nil => simp
  | cons s told ih =>
    rw [List.map_cons, List.count_cons, List.count_cons, ih]
    by_cases hp : p' = p
    · simp [hp]
    · simp [hp, Ne.symm hp]

theorem moved_tallied (hd : d.Orderly) (hl : d.lane? p = some l) (hb : d.monitor.get? p = some b)
    (m : Lane.Move now id l b e l' b' notes) {log : Reports} (ht : d.Tallied log) :
    (d.withLane p l' b').Tallied (log ++ notes.reports p) := by
  intro p' x hx
  rw [breaker_withLane hb] at hx
  rw [Reports.records_append, List.count_append, List.count_append,
    records_reports m (hd.lanes hl).1, count_told, count_told]
  split at hx
  · rename_i hp
    obtain ⟨ops, hturn, rfl⟩ := m.turn (hd.lanes hl).1
    obtain ⟨hs, hf⟩ := b.run_at_totals now ops
    obtain ⟨hs₀, hf₀⟩ := ht p b hb
    have hrec : notes.records id = ops.filterMap Breaker.Op.record? := hturn.records
    cases hx
    rw [if_pos hp, if_pos hp, hp, hs, hf, hs₀, hf₀, hrec]
    exact ⟨rfl, rfl⟩
  · rename_i hp
    rw [if_neg hp, if_neg hp]
    exact ht p' x hx

end Moved

namespace Tallied

variable {d : Desk} {log : Reports}

theorem look (h : d.Tallied log) (now : Nat) {op : Monitor.Op} (hop : op.isLook = true) :
    Tallied { d with monitor := d.monitor.apply now op } log := by
  intro p x hx
  change (d.monitor.apply now op).get? p = some x at hx
  rw [Monitor.get?_apply] at hx
  split at hx
  · rename_i o ho
    obtain ⟨b, hb, rfl⟩ := Option.map_eq_some_iff.mp hx
    have hr : o.record? = none := by
      cases op with
      | on i o' =>
        simp only [Monitor.Op.for?, Option.ite_none_right_eq_some, Option.some.injEq] at ho
        obtain ⟨-, rfl⟩ := ho
        cases o' <;> first | rfl | cases hop
      | survey =>
        cases ho
        rfl
    obtain ⟨hs, hf⟩ := Breaker.apply_totals now b o
    rw [hs, hf, hr]
    exact h p b hb
  · exact h p x hx

theorem say (h : d.Tallied log) {r : Report} (hr : r.isOwn = true) : d.Tallied (log ++ [r]) := by
  have hrec : (Reports.records [r]) = [] := by
    cases r with
    | call => cases hr
    | ready | roundOpens | closed | abandoned => rfl
  intro p b hb
  rw [Reports.records_append, hrec, List.append_nil]
  exact h p b hb

end Tallied

section Deeds

variable {now t t' : Nat} {d d' : Desk} {reports log : Reports}

theorem Deed.fixed (h : Deed now t d reports d') :
    d'.registry = d.registry ∧ d'.consensus = d.consensus ∧ d'.limits = d.limits := by
  cases h <;> exact ⟨rfl, rfl, rfl⟩

theorem Deed.orderly (h : Deed now t d reports d') (hd : d.Orderly) : d'.Orderly := by
  cases h with
  | moved hl hb m =>
    constructor
    · intro p' x hx
      rw [lane?_withLane hl] at hx
      split at hx
      · rename_i hp
        cases hx
        obtain ⟨ho, hp'⟩ := hd.lanes hl
        exact ⟨m.orderly ho, by rw [m.provider_eq, hp', hp]⟩
      · exact hd.lanes hx
    · intro p' hp'
      rw [breaker_withLane hb]
      split
      · rfl
      · rename_i hne
        rw [lane?_withLane hl, if_neg hne] at hp'
        exact hd.watched hp'
  | looked op =>
    exact ⟨hd.lanes, fun hp => Monitor.get?_apply_isSome (hd.watched hp) now op⟩
  | recalled | filed | settled => exact ⟨hd.lanes, hd.watched⟩
  | told => exact hd

theorem Deed.staffed {ids : List String} (h : Deed now t d reports d') (hd : d.Staffed ids) :
    d'.Staffed ids := by
  intro p hp
  cases h with
  | moved hl =>
    rw [lane?_withLane hl]
    split
    · rfl
    · exact hd p hp
  | looked | recalled | filed | settled | told => exact hd p hp

theorem Deed.spared (h : Deed now t' d reports d') (hd : d.Orderly) (ht : t ≠ t') :
    Spared t d reports d' := by
  cases h with
  | moved hl hb m =>
    refine ⟨rfl, fun p n => moved_bystander hd hl m ?_, fun hr _ => mem_reports hr⟩
    rintro ⟨-, hi⟩
    exact ht (congrArg CallId.ticket hi)
  | looked | recalled => exact ⟨rfl, fun p n => .untouched, fun hr => by simp at hr⟩
  | filed ticket =>
    refine ⟨?_, fun p n => .untouched, fun hr => by simp at hr⟩
    rw [ticket?_setTicket, if_neg ht]
  | settled =>
    refine ⟨?_, fun p n => .untouched, fun hr => by simp at hr⟩
    rw [ticket?_closeTicket, if_neg ht]
  | told hown htold =>
    refine ⟨rfl, fun p n => ?_, ?_⟩
    · rw [Reports.on_eq_nil_of_own hown]
      exact .untouched
    · rintro x hx rfl
      rw [List.mem_singleton.mp hx] at ht
      exact absurd htold ht

theorem Deed.tallied (h : Deed now t d reports d') (hd : d.Orderly) (ht : d.Tallied log) :
    d'.Tallied (log ++ reports) := by
  cases h with
  | moved hl hb m => exact moved_tallied hd hl hb m ht
  | looked op hop =>
    rw [List.append_nil]
    exact ht.look now hop
  | recalled | filed | settled =>
    rw [List.append_nil]
    exact ht
  | told hown => exact ht.say hown

theorem Deeds.fixed (h : Deeds now t d reports d') :
    d'.registry = d.registry ∧ d'.consensus = d.consensus ∧ d'.limits = d.limits := by
  induction h with
  | none => exact ⟨rfl, rfl, rfl⟩
  | more h _ ih =>
    obtain ⟨hr, hc, hl⟩ := h.fixed
    exact ⟨ih.1.trans hr, ih.2.1.trans hc, ih.2.2.trans hl⟩

theorem Deeds.orderly (h : Deeds now t d reports d') (hd : d.Orderly) : d'.Orderly := by
  induction h with
  | none => exact hd
  | more h _ ih => exact ih (h.orderly hd)

theorem Deeds.staffed {ids : List String} (h : Deeds now t d reports d') (hd : d.Staffed ids) :
    d'.Staffed ids := by
  induction h with
  | none => exact hd
  | more h _ ih => exact ih (h.staffed hd)

theorem Deeds.spared (h : Deeds now t' d reports d') (hd : d.Orderly) (ht : t ≠ t') :
    Spared t d reports d' := by
  induction h with
  | none => exact ⟨rfl, fun p n => .untouched, fun hr => by simp at hr⟩
  | more h _ ih =>
    have hfirst := h.spared hd ht
    have hrest := ih (h.orderly hd)
    refine ⟨hrest.ticket.trans hfirst.ticket, fun p n => ?_, fun hr htk => ?_⟩
    · rw [Reports.on_append]
      exact (hfirst.calls p n).trans (hrest.calls p n)
    · rcases List.mem_append.mp hr with hr | hr
      · exact hfirst.unsaid hr htk
      · exact hrest.unsaid hr htk

theorem Deeds.tallied (h : Deeds now t d reports d') (hd : d.Orderly) (ht : d.Tallied log) :
    d'.Tallied (log ++ reports) := by
  induction h generalizing log with
  | none => rwa [List.append_nil]
  | more h _ ih =>
    rw [← List.append_assoc]
    exact ih (h.orderly hd) (h.tallied hd ht)

end Deeds

end Desk

end Switchboard
