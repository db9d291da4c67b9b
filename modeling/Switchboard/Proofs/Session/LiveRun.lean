import Mathlib.Data.List.Chain
import Switchboard.Proofs.Session.Use

/-!
A conversation as a function of its history. What a session contributes to a request depends on the
uses of this session since it was last idle, on the turns among them and on the providers that were
given with them, and on nothing else that was done to the store.
-/

namespace Switchboard

namespace Session

/-- No use comes the timeout or more after the one before it. -/
def Unbroken (timeout : Nat) (uses : List (Nat × Use)) : Prop :=
  uses.IsChain fun u v => v.1 - u.1 < timeout

instance (timeout : Nat) (uses : List (Nat × Use)) : Decidable (Unbroken timeout uses) :=
  inferInstanceAs (Decidable (List.IsChain _ _))

/-- The uses since the last gap of the timeout or more: the longest unbroken end of the uses. -/
def liveRun (timeout : Nat) : List (Nat × Use) → List (Nat × Use)
  | [] => []
  | u :: uses => if Unbroken timeout (u :: uses) then u :: uses else liveRun timeout uses

/-- The live run that a use at this time joins; none when the last use is too long ago. -/
def liveUntil (timeout now : Nat) (uses : List (Nat × Use)) : List (Nat × Use) :=
  match uses.getLast? with
  | some u => if now - u.1 < timeout then liveRun timeout uses else []
  | none => []

def Use.turn? : Use → Option StoredTurn
  | remember t => some t
  | begin _ | forget => none

/-- What a use says about the provider to ask, if it says anything. -/
def Use.preference? : Use → Option (Option String)
  | begin (some p) => some (some p)
  | forget => some none
  | begin none | remember _ => none

/-- The turns that were added, oldest first. -/
def turnsIn (uses : List (Nat × Use)) : List StoredTurn :=
  uses.filterMap (·.2.turn?)

/-- The provider that was given last and has not been forgotten since. -/
def preferredIn (uses : List (Nat × Use)) : Option String :=
  (uses.reverse.findSome? (·.2.preference?)).join

/-- The session that a live run leaves behind. -/
def ofLive (settings : SessionSettings) (now : Nat) (live : List (Nat × Use)) : Session where
  turns := Sessions.takeLast settings.turnsKept (turnsIn live)
  preferred := preferredIn live
  lastUse := now

section Live

variable {timeout now : Nat} {u : Use} {uses live : List (Nat × Use)}

theorem unbroken_snoc : Unbroken timeout (uses ++ [(now, u)]) ↔
    Unbroken timeout uses ∧ ∀ v ∈ uses.getLast?, now - v.1 < timeout := by
  simp [Unbroken, List.isChain_append]

theorem liveRun_of_unbroken (h : Unbroken timeout uses) : liveRun timeout uses = uses := by
  cases uses with
  | nil => rfl
  | cons v uses => rw [liveRun, if_pos h]

theorem liveRun_joined (h : ∀ v ∈ uses.getLast?, now - v.1 < timeout) :
    liveRun timeout (uses ++ [(now, u)]) = liveRun timeout uses ++ [(now, u)] := by
  induction uses with
  | nil => exact liveRun_of_unbroken (List.isChain_singleton _)
  | cons v uses ih =>
    by_cases hun : Unbroken timeout (v :: uses)
    · rw [liveRun_of_unbroken hun, liveRun_of_unbroken (unbroken_snoc.mpr ⟨hun, h⟩)]
    · have hun' : ¬Unbroken timeout (v :: (uses ++ [(now, u)])) :=
        fun hu => hun (unbroken_snoc.mp hu).1
      rw [List.cons_append, liveRun, if_neg hun', liveRun, if_neg hun]
      refine ih fun w hw => h w ?_
      cases uses with
      | nil => cases hw
      | cons x uses => rwa [List.getLast?_cons_cons]

theorem liveRun_broken {v : Nat × Use} (hv : uses.getLast? = some v) (h : timeout ≤ now - v.1) :
    liveRun timeout (uses ++ [(now, u)]) = [(now, u)] := by
  induction uses with
  | nil => cases hv
  | cons w uses ih =>
    have hun : ¬Unbroken timeout (w :: (uses ++ [(now, u)])) := by
      intro hu
      have hlt := (unbroken_snoc.mp hu).2 v hv
      omega
    rw [List.cons_append, liveRun, if_neg hun]
    cases uses with
    | nil => exact liveRun_of_unbroken (List.isChain_singleton _)
    | cons x uses => exact ih (by rwa [List.getLast?_cons_cons] at hv)

/-- A use joins the live run, or it begins a new one. -/
theorem liveRun_snoc (timeout now : Nat) (uses : List (Nat × Use)) (u : Use) :
    liveRun timeout (uses ++ [(now, u)]) = liveUntil timeout now uses ++ [(now, u)] := by
  unfold liveUntil
  cases hv : uses.getLast? with
  | none =>
    rw [List.getLast?_eq_none_iff.mp hv]
    exact liveRun_of_unbroken (List.isChain_singleton _)
  | some v =>
    dsimp only
    split
    · rename_i h
      exact liveRun_joined fun w hw => by
        rw [hv] at hw
        exact Option.some.inj hw ▸ h
    · rename_i h
      rw [liveRun_broken hv (Nat.le_of_not_lt h), List.nil_append]

theorem liveUntil_snoc (timeout now later : Nat) (uses : List (Nat × Use)) (u : Use) :
    liveUntil timeout later (uses ++ [(now, u)]) =
      if timeout ≤ later - now then [] else liveUntil timeout now uses ++ [(now, u)] := by
  rw [liveUntil, List.getLast?_concat]
  dsimp only
  rw [liveRun_snoc]
  by_cases h : timeout ≤ later - now
  · rw [if_pos h, if_neg (Nat.not_lt.mpr h)]
  · rw [if_neg h, if_pos (Nat.lt_of_not_le h)]

theorem turnsIn_snoc (live : List (Nat × Use)) (now : Nat) (u : Use) :
    turnsIn (live ++ [(now, u)]) = turnsIn live ++ u.turn?.toList := by
  unfold turnsIn
  rw [List.filterMap_append, List.filterMap_cons]
  cases u.turn? <;> rfl

theorem preferredIn_snoc (live : List (Nat × Use)) (now : Nat) (u : Use) :
    preferredIn (live ++ [(now, u)]) = u.preference?.getD (preferredIn live) := by
  unfold preferredIn
  rw [List.reverse_concat, List.findSome?_cons]
  cases u.preference? <;> rfl

theorem ofLive_nil (settings : SessionSettings) (now : Nat) :
    ofLive settings now [] = { lastUse := now } := by
  simp [ofLive, turnsIn, preferredIn, Sessions.takeLast]

/-- A use of the session that a live run leaves behind adds itself to the run. -/
theorem change_ofLive (settings : SessionSettings) (now : Nat) (live : List (Nat × Use))
    (u : Use) : u.change settings (ofLive settings now live) =
      ofLive settings now (live ++ [(now, u)]) := by
  simp only [ofLive, turnsIn_snoc, preferredIn_snoc]
  cases u with
  | begin given => cases given <;> simp [Use.change, Use.turn?, Use.preference?, Sessions.prefer]
  | remember t =>
    simp only [Use.change, Use.turn?, Use.preference?, Option.toList, Option.getD_none,
      Sessions.takeLast_takeLast_append (Nat.le_refl _)]
  | forget => simp [Use.change, Use.turn?, Use.preference?]

end Live

end Session

namespace Sessions

open Session

/-- The uses of one session among operations on the store. -/
def usesOf (id : String) (ops : List (Nat × Op)) : List (Nat × Use) :=
  ops.filterMap fun e =>
    match e.2 with
    | .on i u => if i = id then some (e.1, u) else none
    | .count _ => none

variable {settings : SessionSettings} {ops : List (Nat × Op)} {now later : Nat}

/-- Whatever was done to the store, a use finds what the live run of its session has left. -/
theorem current_run (created : Nat) (h : Timely ops now) (id : String) :
    (run { settings, lastSweep := created } ops).current now id =
      ofLive settings now (liveUntil settings.idleTimeout now (usesOf id ops)) := by
  induction ops using List.reverseRecOn generalizing now with
  | nil => exact (ofLive_nil settings now).symm
  | append_singleton ops e ih =>
    obtain ⟨t, op⟩ := e
    obtain ⟨ht, hle⟩ := (timely_snoc ops t now op).mp h
    have hst : (run { settings, lastSweep := created } ops).Orderly :=
      (orderly_new settings created).run
    have hset : (run { settings, lastSweep := created } ops).settings = settings := settings_run
    have hbefore : Timely ops now := h.of_append.1
    cases op with
    | count i =>
      have huses : usesOf id (ops ++ [(t, .count i)]) = usesOf id ops := by simp [usesOf]
      rw [run_snoc, huses]
      exact ih hbefore
    | on i u =>
      rw [run_snoc, apply_on]
      by_cases hi : i = id
      · subst hi
        have huses : usesOf i (ops ++ [(t, .on i u)]) = usesOf i ops ++ [(t, u)] := by
          simp [usesOf]
        have hfound := ih ht
        rw [current_use_self hst, huses, liveUntil_snoc, hset, hfound, change_ofLive]
        · split
          · exact (ofLive_nil settings now).symm
          · rfl
        · rw [hset, hfound, change_ofLive]
          rfl
      · have huses : usesOf id (ops ++ [(t, .on i u)]) = usesOf id ops := by simp [usesOf, hi]
        rw [current_use_other hst (Ne.symm hi) hle, huses]
        exact ih hbefore

/-- What a session contributes to a request: the provider that was given last, with the request
itself or earlier in its live run, unless it was forgotten; and the last turns of the live run.
Sweeps, other sessions and the turns that were cut off leave no trace in it. -/
theorem recall_of_live_run (created : Nat) (h : Timely ops now) (id : String)
    (given : Option String) :
    ((run { settings, lastSweep := created } ops).beginTurn now id given).1 =
      let live := liveRun settings.idleTimeout (usesOf id ops ++ [(now, .begin given)])
      ⟨preferredIn live, (takeLast settings.historyTurns (turnsIn live)).map (·.turn)⟩ := by
  have hst : (run { settings, lastSweep := created } ops).Orderly :=
    (orderly_new settings created).run
  have hset : (run { settings, lastSweep := created } ops).settings = settings := settings_run
  have hkept : settings.historyTurns ≤ settings.turnsKept := by
    unfold SessionSettings.turnsKept
    omega
  have hturns (live : List (Nat × Use)) :
      takeLast settings.historyTurns (ofLive settings now live).turns =
        takeLast settings.historyTurns (turnsIn live) :=
    takeLast_takeLast hkept _
  simp only [beginTurn, prefer, current_sweep hst (Nat.le_refl now), current_run created h, hset,
    hturns, liveRun_snoc, turnsIn_snoc, preferredIn_snoc]
  cases given <;> simp [ofLive, Use.turn?, Use.preference?]

/-- Sessions start over after ten seconds, and one turn is repeated. -/
def briefSettings : SessionSettings :=
  { idleTimeoutSecs := 10, historyTurns := 1, maxStoredTurns := 0 }

def turnOf (message answer : String) : StoredTurn :=
  ⟨⟨message, answer⟩, .general, "p"⟩

/-- The session `a` was idle, and was swept out by a use of `b`, before its last two turns. -/
def restarted : List (Nat × Op) :=
  [(0, .on "a" (.begin (some "p"))), (1000, .on "a" (.remember (turnOf "one" "1"))),
    (12000, .on "b" (.begin (some "r"))), (13000, .on "a" (.begin (some "q"))),
    (14000, .on "a" (.remember (turnOf "two" "2"))), (14000, .count none),
    (20000, .on "b" .forget), (23000, .on "a" (.remember (turnOf "three" "3")))]

theorem recall_of_live_run_restarted : Timely restarted 32000 ∧
    ((run { settings := briefSettings } restarted).beginTurn 32000 "a" none).1 =
      ⟨some "q", [⟨"three", "3"⟩]⟩ := by
  have h : Timely restarted 32000 := by decide
  refine ⟨h, (recall_of_live_run 0 h "a" none).trans ?_⟩
  decide +kernel

end Sessions

end Switchboard
