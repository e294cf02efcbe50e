import DocDrift.Poll

/-!
When the loop of passes ends. The last pass is the first one during which a shutdown is asked for or
the sender goes away, whatever comes of the passes.

The loop is also given step by step, with the time that goes by between two passes: it looks at the
flag, makes a pass, and then waits for the interval or the channel, whichever is ready. Both of them
may be; then either may end the wait. `Ends` says that every way to go on comes to an end with the
same passes.
-/

set_option autoImplicit false

namespace DocDrift.Poll

/-- Whether a signal makes the pass during which it comes the last one. -/
def Signal.ends : Signal → Bool
  | .send value => value
  | .drop => true
  | .quiet => false

/-- The pass that comes after the given ones. -/
def Turn.closing : Turn :=
  ⟨.send true, .ok .empty⟩

/-- The position of the last pass that is made, from one on. -/
def lastPass (turns : List Turn) : Nat :=
  (turns ++ [Turn.closing]).findIdx (fun turn => turn.signal.ends) + 1

/-! ### The passes of the loop -/

/-- The progress after some of the passes that are to come. -/
def Progress.advance (progress : Progress) (turns : List Turn) : Progress :=
  ⟨progress.passes + turns.length, progress.turns ++ turns⟩

theorem Progress.advance_cons (progress : Progress) (turn : Turn) (rest : List Turn) :
    progress.advance (turn :: rest) = (progress.next turn).advance rest := by
  simp only [advance, next, List.length_cons, List.append_assoc, List.singleton_append,
    Progress.mk.injEq, and_true]
  omega

theorem lastPass_cons (turn : Turn) (rest : List Turn) :
    lastPass (turn :: rest) = if turn.signal.ends then 1 else lastPass rest + 1 := by
  rw [lastPass, List.cons_append, List.findIdx_cons]
  cases turn.signal.ends <;> rfl

theorem lastPass_le (turns : List Turn) : lastPass turns ≤ turns.length + 1 := by
  induction turns with
  | nil => exact Nat.le_refl 1
  | cons turn rest ih =>
      rw [lastPass_cons, List.length_cons]
      split
      · omega
      · omega

/-- The signals alone decide which pass is the last. -/
theorem lastPass_congr {turns others : List Turn}
    (same : others.map Turn.signal = turns.map Turn.signal) : lastPass others = lastPass turns := by
  induction turns generalizing others with
  | nil =>
      rw [List.map_eq_nil_iff.mp same]
  | cons turn rest ih =>
      cases others with
      | nil => simp at same
      | cons other more =>
          rw [List.map_cons, List.map_cons, List.cons.injEq] at same
          rw [lastPass_cons, lastPass_cons, same.1, ih same.2]

theorem wait?_of_ends {signal : Signal} (ends : signal.ends = true) :
    ((Channel.holding false).after signal).wait? = some (.holding true) ∨
      ((Channel.holding false).after signal).wait? = none := by
  cases signal with
  | send value =>
      obtain rfl : value = true := ends
      exact .inl rfl
  | drop => exact .inr rfl
  | quiet => cases ends

theorem wait?_of_not_ends {signal : Signal} (goesOn : signal.ends = false) :
    ((Channel.holding false).after signal).wait? = some (.holding false) := by
  cases signal with
  | send value =>
      obtain rfl : value = false := goesOn
      rfl
  | drop => cases goesOn
  | quiet => rfl

theorem loop_shut (progress : Progress) (turns : List Turn) :
    loop (.holding true) progress turns = progress := by
  cases turns <;> rfl

theorem loop_last {turn : Turn} (ends : turn.signal.ends = true) (progress : Progress)
    (rest : List Turn) : loop (.holding false) progress (turn :: rest) = progress.next turn := by
  have unasked : (Channel.holding false).value = false := rfl
  rw [loop, if_neg (by simp [unasked])]
  rcases wait?_of_ends ends with shut | gone
  · rw [shut]
    exact loop_shut _ _
  · rw [gone]

theorem loop_goes_on {turn : Turn} (goesOn : turn.signal.ends = false) (progress : Progress)
    (rest : List Turn) : loop (.holding false) progress (turn :: rest) =
      loop (.holding false) (progress.next turn) rest := by
  have unasked : (Channel.holding false).value = false := rfl
  rw [loop, if_neg (by simp [unasked]), wait?_of_not_ends goesOn]

/-- From an open channel on, the passes up to the last one are made. -/
theorem loop_open (progress : Progress) (turns : List Turn) :
    loop (.holding false) progress turns =
      progress.advance ((turns ++ [Turn.closing]).take (lastPass turns)) := by
  induction turns generalizing progress with
  | nil => rfl
  | cons turn rest ih =>
      rw [lastPass_cons]
      cases ends : turn.signal.ends with
      | true =>
          rw [loop_last ends]
          rfl
      | false =>
          rw [loop_goes_on ends, ih]
          simp only [Bool.false_eq_true, if_false, List.cons_append, List.take_succ_cons]
          rw [Progress.advance_cons]

theorem run_shut (turns : List Turn) : run true turns = ⟨0, []⟩ :=
  loop_shut ⟨0, []⟩ turns

theorem run_open (turns : List Turn) :
    run false turns = ⟨lastPass turns, (turns ++ [Turn.closing]).take (lastPass turns)⟩ := by
  have length : ((turns ++ [Turn.closing]).take (lastPass turns)).length = lastPass turns := by
    have most := lastPass_le turns
    rw [List.length_take, List.length_append, List.length_singleton]
    omega
  rw [run, loop_open, Progress.advance, length]
  simp

/-! ### Step by step -/

/-- Where the loop stands. -/
inductive Phase
  /-- It is about to look at the flag. -/
  | looking
  /-- A pass has ended some time ago. -/
  | waiting (elapsed : Nat)
  | stopped
  deriving DecidableEq, Repr

structure State where
  phase : Phase
  channel : Channel
  /-- The passes to come; behind them every pass asks for a shutdown. -/
  ahead : List Turn
  progress : Progress

namespace State

def start (initial : Bool) (turns : List Turn) : State :=
  ⟨.looking, .holding initial, turns, ⟨0, []⟩⟩

end State

/-- The pass that comes next, and those behind it. -/
def upcoming : List Turn → Turn × List Turn
  | [] => (Turn.closing, [])
  | turn :: rest => (turn, rest)

/-- What the loop can do next. Nothing is sent between passes; a wait ends when the interval has
gone by or when the channel has something to tell, and if both are so, either may end it. -/
inductive Step (interval : Nat) : State → State → Prop
  | stop {channel : Channel} {ahead : List Turn} {progress : Progress}
      (asked : channel.value = true) :
      Step interval ⟨.looking, channel, ahead, progress⟩ ⟨.stopped, channel, ahead, progress⟩
  | pass {channel : Channel} {ahead : List Turn} {progress : Progress}
      (unasked : channel.value = false) :
      Step interval ⟨.looking, channel, ahead, progress⟩
        ⟨.waiting 0, channel.after (upcoming ahead).1.signal, (upcoming ahead).2,
          progress.next (upcoming ahead).1⟩
  | tell {channel : Channel} {ahead : List Turn} {progress : Progress} {elapsed : Nat}
      (unseen : channel.unseen = true) :
      Step interval ⟨.waiting elapsed, channel, ahead, progress⟩
        ⟨.looking, { channel with unseen := false }, ahead, progress⟩
  | abandon {channel : Channel} {ahead : List Turn} {progress : Progress} {elapsed : Nat}
      (seen : channel.unseen = false) (closed : channel.closed = true) :
      Step interval ⟨.waiting elapsed, channel, ahead, progress⟩
        ⟨.stopped, channel, ahead, progress⟩
  | expire {channel : Channel} {ahead : List Turn} {progress : Progress} {elapsed : Nat}
      (due : interval ≤ elapsed) :
      Step interval ⟨.waiting elapsed, channel, ahead, progress⟩
        ⟨.looking, channel, ahead, progress⟩
  | tick {channel : Channel} {ahead : List Turn} {progress : Progress} {elapsed : Nat}
      (seen : channel.unseen = false) (live : channel.closed = false) (early : elapsed < interval) :
      Step interval ⟨.waiting elapsed, channel, ahead, progress⟩
        ⟨.waiting (elapsed + 1), channel, ahead, progress⟩

/-- Every way to go on from a state stops after finitely many steps, with some progress. -/
inductive Ends (interval : Nat) (reached : Progress) : State → Prop
  | stopped (channel : Channel) (ahead : List Turn) :
      Ends interval reached ⟨.stopped, channel, ahead, reached⟩
  | step (state : State) (goes : ∃ next, Step interval state next)
      (each : ∀ next, Step interval state next → Ends interval reached next) :
      Ends interval reached state

/-- What holds of every state that is reached: the loop only looks at a channel that is open and has
told everything, and after the pass only time goes by on such a channel. -/
def State.Orderly (state : State) : Prop :=
  match state.phase with
  | .looking => state.channel.unseen = false ∧ state.channel.closed = false
  | .waiting 0 => state.channel.unseen = false ∨ state.channel.closed = false
  | .waiting (_ + 1) => state.channel.unseen = false ∧ state.channel.closed = false
  | .stopped => True

/-- What the loop comes to from a state. -/
def State.outcome (state : State) : Progress :=
  match state.phase with
  | .looking => loop state.channel state.progress state.ahead
  | .waiting _ =>
      match state.channel.wait? with
      | some channel => loop channel state.progress state.ahead
      | none => state.progress
  | .stopped => state.progress

/-- A bound on the steps from a state in which the loop looks at a flag. -/
def reserve (interval : Nat) (flag : Bool) (ahead : List Turn) : Nat :=
  if flag then 1 else (ahead.length + 1) * (interval + 2) + 1

/-- A bound on the steps that are left. -/
def State.bound (interval : Nat) (state : State) : Nat :=
  match state.phase with
  | .looking => reserve interval state.channel.value state.ahead
  | .waiting elapsed =>
      interval - elapsed + 1 + reserve interval state.channel.value state.ahead
  | .stopped => 0

section Steps

variable {interval : Nat} {state next : State}

theorem orderly_after {channel : Channel} (seen : channel.unseen = false) (signal : Signal) :
    (channel.after signal).unseen = false ∨ (channel.after signal).closed = false := by
  cases signal with
  | send value =>
      cases closed : channel.closed with
      | true => simp [Channel.after, closed, seen]
      | false => simp [Channel.after, closed]
  | drop => exact .inl seen
  | quiet => exact .inl seen

theorem Step.orderly (positive : 0 < interval) (step : Step interval state next)
    (orderly : state.Orderly) : next.Orderly := by
  cases step with
  | stop asked => trivial
  | pass unasked => exact orderly_after orderly.1 _
  | @tell channel ahead progress elapsed unseen =>
      cases elapsed with
      | zero =>
          rcases orderly with seen | live
          · rw [seen] at unseen
            cases unseen
          · exact ⟨rfl, live⟩
      | succ elapsed => exact ⟨rfl, orderly.2⟩
  | abandon seen closed => trivial
  | @expire channel ahead progress elapsed due =>
      cases elapsed with
      | zero => omega
      | succ elapsed => exact orderly
  | tick seen live early => exact ⟨seen, live⟩

theorem wait?_of_seen {channel : Channel} (seen : channel.unseen = false)
    (live : channel.closed = false) : channel.wait? = some channel := by
  simp [Channel.wait?, seen, live]

theorem loop_unasked {channel : Channel} (unasked : channel.value = false)
    (live : channel.closed = false) (progress : Progress) (ahead : List Turn) :
    loop channel progress ahead =
      match (channel.after (upcoming ahead).1.signal).wait? with
      | some channel => loop channel (progress.next (upcoming ahead).1) (upcoming ahead).2
      | none => progress.next (upcoming ahead).1 := by
  cases ahead with
  | nil =>
      -- the closing pass asks for a shutdown, so the loop only looks once more
      simp [loop, upcoming, unasked, Turn.closing, Channel.after, live, Channel.wait?]
  | cons turn rest =>
      rw [loop, if_neg (by simp [unasked])]
      cases waited : (channel.after turn.signal).wait? with
      | none => simp [upcoming, waited]
      | some next => simp [upcoming, waited]

/-- Whatever the loop does, it comes to the same. -/
theorem Step.outcome (positive : 0 < interval) (step : Step interval state next)
    (orderly : state.Orderly) : next.outcome = state.outcome := by
  cases step with
  | @stop channel ahead progress asked =>
      change progress = loop channel progress ahead
      cases ahead <;> simp [loop, asked]
  | pass unasked => exact (loop_unasked unasked orderly.2 _ _).symm
  | tell unseen => simp [State.outcome, Channel.wait?, unseen]
  | abandon seen closed => simp [State.outcome, Channel.wait?, seen, closed]
  | @expire channel ahead progress elapsed due =>
      cases elapsed with
      | zero => omega
      | succ elapsed => simp [State.outcome, wait?_of_seen orderly.1 orderly.2]
  | tick seen live early => rfl

theorem reserve_le (interval : Nat) (flag : Bool) (ahead : List Turn) :
    reserve interval flag ahead ≤ reserve interval false ahead := by
  cases flag with
  | false => exact Nat.le_refl _
  | true => simp [reserve]

theorem reserve_cons (interval : Nat) (turn : Turn) (rest : List Turn) :
    reserve interval false (turn :: rest) = reserve interval false rest + (interval + 2) := by
  have product : (rest.length + 1 + 1) * (interval + 2) =
      (rest.length + 1) * (interval + 2) + (interval + 2) := Nat.succ_mul _ _
  simp only [reserve, List.length_cons, product, Bool.false_eq_true, if_false]
  omega

/-- A pass, the wait behind it and what follows take fewer steps than were left. -/
theorem reserve_upcoming (interval : Nat) {channel : Channel} (live : channel.closed = false)
    (ahead : List Turn) :
    interval + 1 + reserve interval (channel.after (upcoming ahead).1.signal).value
        (upcoming ahead).2 <
      reserve interval false ahead := by
  cases ahead with
  | nil => simp [upcoming, Turn.closing, Channel.after, live, reserve]
  | cons turn rest =>
      have most := reserve_le interval (channel.after turn.signal).value rest
      rw [reserve_cons]
      simp only [upcoming]
      omega

/-- With every step fewer are left. -/
theorem Step.bound (step : Step interval state next) (orderly : state.Orderly) :
    next.bound interval < state.bound interval := by
  cases step with
  | stop asked => simp [State.bound, reserve, asked]
  | pass unasked =>
      have fewer := reserve_upcoming interval orderly.2
      simpa [State.bound, unasked] using fewer _
  | tell unseen =>
      simp only [State.bound]
      omega
  | abandon seen closed =>
      simp only [State.bound]
      omega
  | expire due =>
      simp only [State.bound]
      omega
  | tick seen live early =>
      simp only [State.bound]
      omega

/-- The loop always goes on until it has stopped. -/
theorem exists_step (interval : Nat) (going : state.phase ≠ .stopped) :
    ∃ next, Step interval state next := by
  obtain ⟨phase, channel, ahead, progress⟩ := state
  cases phase with
  | looking =>
      cases asked : channel.value with
      | true => exact ⟨_, .stop asked⟩
      | false => exact ⟨_, .pass asked⟩
  | waiting elapsed =>
      cases unseen : channel.unseen with
      | true => exact ⟨_, .tell unseen⟩
      | false =>
          cases closed : channel.closed with
          | true => exact ⟨_, .abandon unseen closed⟩
          | false =>
              by_cases due : interval ≤ elapsed
              · exact ⟨_, .expire due⟩
              · exact ⟨_, .tick unseen closed (Nat.lt_of_not_le due)⟩
  | stopped => exact absurd rfl going

theorem ends_of_orderly (positive : 0 < interval) (orderly : state.Orderly) :
    Ends interval state.outcome state := by
  induction bounded : state.bound interval using Nat.strongRecOn generalizing state with
  | _ steps ih =>
      subst bounded
      by_cases stopped : state.phase = .stopped
      · obtain ⟨phase, channel, ahead, progress⟩ := state
        obtain rfl : phase = .stopped := stopped
        exact .stopped channel ahead
      · apply Ends.step state (exists_step interval stopped)
        intro next step
        rw [← step.outcome positive orderly]
        exact ih _ (step.bound orderly) (step.orderly positive orderly) rfl

end Steps

/-- The loop always ends, after as many passes as it counts. There is none if a shutdown is asked
for from the beginning; otherwise the last one is the first during which one is asked for or the
sender goes away. What comes of the passes has no part in it. -/
theorem run_ends (interval : Nat) (positive : 0 < interval) (initial : Bool) (turns : List Turn) :
    Ends interval (run initial turns) (.start initial turns) ∧
    (run initial turns).passes = (run initial turns).turns.length ∧
    (run initial turns).turns = (turns ++ [Turn.closing]).take (run initial turns).passes ∧
    (run initial turns).passes = (if initial then 0 else lastPass turns) ∧
    ∀ others : List Turn, others.map Turn.signal = turns.map Turn.signal →
      (run initial others).passes = (run initial turns).passes := by
  have orderly : (State.start initial turns).Orderly := ⟨rfl, rfl⟩
  refine ⟨ends_of_orderly positive orderly, ?_⟩
  cases initial with
  | true => simp [run_shut]
  | false =>
      have most := lastPass_le turns
      simp only [run_open, List.length_take, List.length_append, List.length_singleton, if_false,
        Bool.false_eq_true, true_and]
      refine ⟨by omega, ?_⟩
      intro others same
      exact lastPass_congr same

/-- A pass that fails, one that hears that no shutdown is wanted, a quiet one, and one during which
the sender goes away. -/
def abandonedTurns : List Turn :=
  [⟨.quiet, .error (.other "boom")⟩, ⟨.send false, .ok .empty⟩, ⟨.quiet, .ok .empty⟩,
    ⟨.drop, .error .store⟩, ⟨.send true, .ok .empty⟩]

theorem run_ends_of_abandoned :
    0 < 5 ∧ Ends 5 (run false abandonedTurns) (.start false abandonedTurns) ∧
      (run false abandonedTurns).passes = 4 := by
  have ended := run_ends 5 (by decide) false abandonedTurns
  exact ⟨by decide, ended.1, ended.2.2.2.1⟩

end DocDrift.Poll
