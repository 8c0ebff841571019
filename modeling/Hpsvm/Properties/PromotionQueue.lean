import Hpsvm.Tiering

/-!
# The accounting of the promotion queue

The pending counter counts the admitted jobs that are outstanding and the calls that were refused but
have not taken their increment back yet. Admission compares the counter and so keeps the jobs within
the limit, whatever the refused calls add to it for a moment. A call that ends was counted once.
-/

namespace Hpsvm

open Foundation
open Foundation.Interleaving (System Logged step_cases)

namespace PromotionPhase

/-- What a call or job has in the pending counter. -/
def held (phase : PromotionPhase) : Nat :=
  phase.outstanding + if phase = .refused then 1 else 0

theorem held_le (phase : PromotionPhase) : phase.held ≤ phase.outstanding + phase.onThread := by
  unfold held
  split
  next refused => simp [refused, onThread]
  · omega

theorem outstanding_le_held (phase : PromotionPhase) : phase.outstanding ≤ phase.held :=
  Nat.le_add_right _ _

theorem held_of_idle {phase : PromotionPhase} (ended : phase.idle = true) : phase.held = 0 := by
  cases phase <;> simp_all [idle, held, outstanding]

end PromotionPhase

namespace TierPromoter

variable {promoter : TierPromoter} {phase phase' : PromotionPhase} {choice : PromotionChoice}
  {atomics atomics' : PromoterAtomics} {labels : List Counted}

/-! ### One operation -/

/-- What an operation does to the pending counter and to what the call has in it. -/
inductive PendingEffect (promoter : TierPromoter) (phase phase' : PromotionPhase)
    (before after : Nat) : Prop
  | keeps (same : after = before) (held : phase'.held = phase.held)
      (outstanding : phase'.outstanding = phase.outstanding)
  | adds (added : after = (before + 1) % atomicRange) (nothing : phase.held = 0)
      (held : phase'.held = 1)
      (outstanding : phase'.outstanding = if before < promoter.maxPending then 1 else 0)
  | subtracts (subtracted : after = if before = 0 then atomicRange - 1 else before - 1)
      (held : phase.held = 1) (nothing : phase'.held = 0)

namespace PendingEffect

variable {before after total next : Nat}

/-- A job is only admitted below the limit, and the counter is no less than the jobs. -/
theorem outstanding_le (effect : PendingEffect promoter phase phase' before after)
    (sum : next + phase.outstanding = total + phase'.outstanding) (jobs : total ≤ before)
    (within : total ≤ promoter.maxPending) : next ≤ promoter.maxPending := by
  cases effect with
  | keeps _ _ same => omega
  | adds _ nothing _ admitted => split at admitted <;> omega
  | subtracts _ _ nothing =>
    have none := PromotionPhase.outstanding_le_held phase'
    omega

/-- A counter that counts what the calls have in it goes on to, by steps of one, unless it wraps. -/
theorem counts (effect : PendingEffect promoter phase phase' before after)
    (sum : next + phase.held = before + phase'.held) (there : phase.held ≤ before)
    (small : next < atomicRange) :
    after = next ∧ after ≤ before + 1 ∧ before ≤ after + 1 := by
  cases effect with
  | keeps same held _ => omega
  | adds added nothing held _ =>
    rw [Nat.mod_eq_of_lt (by omega)] at added
    omega
  | subtracts subtracted held nothing =>
    rw [if_neg (by omega)] at subtracted
    omega

end PendingEffect

/-- Everything the accounting needs to know of an operation. -/
structure Effect (promoter : TierPromoter) (phase phase' : PromotionPhase)
    (atomics atomics' : PromoterAtomics) (labels : List Counted) : Prop where
  pending : PendingEffect promoter phase phase' atomics.pending atomics'.pending
  onThread : phase'.onThread ≤ phase.onThread
  done : phase'.done = phase.done ++ labels
  stats : atomics'.stats = (labels.foldl PromoterAtomics.count atomics).stats

theorem program_effect
    (ran : promoter.program phase choice atomics = some (phase', atomics', labels)) :
    Effect promoter phase phase' atomics atomics' labels := by
  unfold program at ran
  split at ran
  case h_1 blocking compiled =>
    split at ran
    · obtain ⟨rfl, rfl, rfl⟩ := Prod.mk.inj (Option.some.inj ran)
      exact ⟨.keeps rfl rfl rfl, Nat.zero_le _, rfl, rfl⟩
    · obtain ⟨rfl, rfl, rfl⟩ := Prod.mk.inj (Option.some.inj ran)
      cases blocking <;> exact ⟨.keeps rfl rfl rfl, Nat.le_refl _, rfl, rfl⟩
  case h_2 =>
    split at ran
    next full =>
      obtain ⟨rfl, rfl, rfl⟩ := Prod.mk.inj (Option.some.inj ran)
      refine ⟨.adds rfl rfl rfl ?_, Nat.le_refl _, rfl, rfl⟩
      rw [if_neg (Nat.not_lt.2 full)]
      rfl
    next room =>
      obtain ⟨rfl, rfl, rfl⟩ := Prod.mk.inj (Option.some.inj ran)
      refine ⟨.adds rfl rfl rfl ?_, Nat.le_refl _, rfl, rfl⟩
      rw [if_pos (Nat.lt_of_not_le room)]
      rfl
  case h_3 =>
    obtain ⟨rfl, rfl, rfl⟩ := Prod.mk.inj (Option.some.inj ran)
    exact ⟨.subtracts rfl rfl rfl, Nat.le_refl _, rfl, rfl⟩
  case h_5 =>
    split at ran
    · obtain ⟨rfl, rfl, rfl⟩ := Prod.mk.inj (Option.some.inj ran)
      exact ⟨.keeps rfl rfl rfl, Nat.zero_le _, rfl, rfl⟩
    · obtain ⟨rfl, rfl, rfl⟩ := Prod.mk.inj (Option.some.inj ran)
      exact ⟨.subtracts rfl rfl rfl, Nat.zero_le _, rfl, rfl⟩
  -- The guard, dropped at the end of a job or on the way out of a panic.
  case h_13 blocking outcome elapsed =>
    obtain ⟨rfl, rfl, rfl⟩ := Prod.mk.inj (Option.some.inj ran)
    cases blocking
    · exact ⟨.subtracts rfl rfl rfl, Nat.zero_le _, rfl, rfl⟩
    · exact ⟨.keeps rfl rfl rfl, Nat.zero_le _, rfl, rfl⟩
  case h_14 blocking done =>
    obtain ⟨rfl, rfl, rfl⟩ := Prod.mk.inj (Option.some.inj ran)
    cases blocking
    · exact ⟨.subtracts rfl rfl rfl, Nat.zero_le _, (List.append_nil done).symm, rfl⟩
    · exact ⟨.keeps rfl rfl rfl, Nat.zero_le _, (List.append_nil done).symm, rfl⟩
  case h_15 => cases ran
  -- Everything else leaves the pending counter alone.
  all_goals
    obtain ⟨rfl, rfl, rfl⟩ := Prod.mk.inj (Option.some.inj ran)
    exact ⟨.keeps rfl rfl rfl, by simp [PromotionPhase.onThread], rfl, rfl⟩

/-! ### Every interleaving -/

/-- What was added to a counter according to a log. -/
def added (log : List (Nat × Counted)) (counter : PromotionCounter) : Nat :=
  (log.map fun entry => if entry.2.counter = counter then entry.2.amount else 0).sum

/-- The invariant of the queue. -/
structure Accounted (promoter : TierPromoter) (threads : Nat) (system : PromotionSystem) : Prop where
  pending : system.shared.pending = system.total PromotionPhase.held
  outstanding : system.total PromotionPhase.outstanding ≤ promoter.maxPending
  onThread : system.total PromotionPhase.onThread ≤ threads
  logged : Logged PromotionPhase.done system
  stats : ∀ counter, system.shared.stats counter = added system.log counter % atomicRange

theorem stats_count (atomics : PromoterAtomics) (counted : Counted) (counter : PromotionCounter)
    {before : Nat} (value : atomics.stats counter = before % atomicRange) :
    (atomics.count counted).stats counter =
      (before + if counted.counter = counter then counted.amount else 0) % atomicRange := by
  unfold PromoterAtomics.count
  by_cases same : counted.counter = counter
  · subst same
    simp only [Function.update_self, if_true, value, Nat.mod_add_mod]
  · simp only [Function.update_of_ne (Ne.symm same), if_neg same, Nat.add_zero, value]

theorem stats_foldl (process : Nat) {log : List (Nat × Counted)}
    (value : ∀ counter, atomics.stats counter = added log counter % atomicRange)
    (counter : PromotionCounter) :
    (labels.foldl PromoterAtomics.count atomics).stats counter =
      added (log ++ labels.map fun label => (process, label)) counter % atomicRange := by
  induction labels generalizing atomics log with
  | nil => simpa using value counter
  | cons label rest ih =>
    have first : ∀ other, (atomics.count label).stats other =
        added (log ++ [(process, label)]) other % atomicRange := by
      intro other
      rw [stats_count atomics label other (value other)]
      simp [added]
    have others := ih first
    simpa only [List.foldl_cons, List.map_cons, List.append_assoc, List.singleton_append] using others

namespace Accounted

variable {threads : Nat} {system next : PromotionSystem}

theorem start (accounted : Accounted promoter threads system)
    (allowed : mayStart threads phase system = true) :
    Accounted promoter threads { system with phases := system.phases ++ [phase] } := by
  cases phase with
  | entered blocking =>
    have free : system.total PromotionPhase.onThread < threads := of_decide_eq_true allowed
    refine ⟨?_, ?_, ?_, accounted.logged.start rfl, accounted.stats⟩
    · rw [Interleaving.total_start]
      exact accounted.pending
    · rw [Interleaving.total_start]
      exact accounted.outstanding
    · rw [Interleaving.total_start]
      exact free
  | _ => cases allowed

/-- The refused calls are on their threads, so that the counter does not wrap. -/
theorem total_held_lt (outstanding : system.total PromotionPhase.outstanding ≤ promoter.maxPending)
    (onThread : system.total PromotionPhase.onThread ≤ threads)
    (bound : threads + promoter.maxPending < atomicRange) :
    system.total PromotionPhase.held < atomicRange := by
  have both : system.total PromotionPhase.held ≤
      system.total PromotionPhase.outstanding + system.total PromotionPhase.onThread :=
    Interleaving.total_le_add PromotionPhase.held_le
  omega

/-- The invariant after an operation, and that the counter did not wrap in it. -/
theorem move (accounted : Accounted promoter threads system)
    (bound : threads + promoter.maxPending < atomicRange) {process : Nat}
    (found : system.phases[process]? = some phase)
    (ran : promoter.program phase choice system.shared = some (phase', atomics', labels)) :
    Accounted promoter threads ⟨system.phases.set process phase', atomics',
        system.log ++ labels.map fun label => (process, label)⟩ ∧
      atomics'.pending ≤ system.shared.pending + 1 ∧ system.shared.pending ≤ atomics'.pending + 1 := by
  have effect := program_effect ran
  have logged : Logged PromotionPhase.done (⟨system.phases.set process phase', atomics',
      system.log ++ labels.map fun label => (process, label)⟩ : PromotionSystem) :=
    accounted.logged.move found effect.done
  have stats : ∀ counter, atomics'.stats counter =
      added (system.log ++ labels.map fun label => (process, label)) counter % atomicRange := by
    intro counter
    rw [effect.stats]
    exact stats_foldl process accounted.stats counter
  generalize after : (⟨system.phases.set process phase', atomics',
    system.log ++ labels.map fun label => (process, label)⟩ : PromotionSystem) = next at logged
  have sum : ∀ weight : PromotionPhase → Nat,
      next.total weight + weight phase = system.total weight + weight phase' := by
    intro weight
    rw [← after]
    exact Interleaving.sum_map_set weight found phase'
  have onThread : next.total PromotionPhase.onThread ≤ threads := by
    have onThreadSum := sum PromotionPhase.onThread
    have before := accounted.onThread
    have fewer := effect.onThread
    omega
  have outstanding : next.total PromotionPhase.outstanding ≤ promoter.maxPending := by
    refine effect.pending.outstanding_le (sum _) ?_ accounted.outstanding
    rw [accounted.pending]
    exact Interleaving.total_le PromotionPhase.outstanding_le_held
  have pending : atomics'.pending = next.total PromotionPhase.held ∧
      atomics'.pending ≤ system.shared.pending + 1 ∧
      system.shared.pending ≤ atomics'.pending + 1 := by
    refine effect.pending.counts ?_ ?_ (total_held_lt outstanding onThread bound)
    · rw [accounted.pending]
      exact sum PromotionPhase.held
    · -- What is taken back is still in the counter.
      rw [accounted.pending]
      exact Interleaving.weight_le_total PromotionPhase.held found
  refine ⟨⟨?_, outstanding, onThread, logged, ?_⟩, pending.2⟩
  · rw [← pending.1, ← after]
  · rw [← after]
    exact stats

theorem step (accounted : Accounted promoter threads system)
    (bound : threads + promoter.maxPending < atomicRange) {op : PromotionOp}
    (taken : promoter.step threads op system = some next) :
    Accounted promoter threads next ∧ next.shared.pending ≤ system.shared.pending + 1 ∧
      system.shared.pending ≤ next.shared.pending + 1 := by
  rcases step_cases taken with
    ⟨phase, allowed, rfl⟩ | ⟨process, phase, choice, phase', atomics', labels, found, ran, rfl⟩
  · exact ⟨accounted.start allowed, Nat.le_succ _, Nat.le_succ _⟩
  · exact accounted.move bound found ran

theorem run (bound : threads + promoter.maxPending < atomicRange) {ops : List PromotionOp}
    (ran : Runs.run (promoter.step threads) ops idleSystem = some system) :
    Accounted promoter threads system := by
  have initial : Accounted promoter threads idleSystem :=
    ⟨rfl, Nat.zero_le _, Nat.zero_le _, .empty _, fun _ => rfl⟩
  exact Runs.invariant_run (Accounted promoter threads)
    (fun op before after holds taken => (holds.step bound taken).1) initial ran

end Accounted

/-! ### What a call is counted as -/

/-- How often a call was counted. -/
def timesCounted (labels : List Counted) (counter : PromotionCounter) : Nat :=
  labels.countP fun label => label.counter == counter

/-- Counted as dropped, or as attempted and as one of succeeded and failed. -/
def CountedOnce (labels : List Counted) : Prop :=
  (timesCounted labels .dropped = 1 ∧ timesCounted labels .attempted = 0 ∧
      timesCounted labels .succeeded + timesCounted labels .failed = 0) ∨
    (timesCounted labels .dropped = 0 ∧ timesCounted labels .attempted = 1 ∧
      timesCounted labels .succeeded + timesCounted labels .failed = 1)

/-- A call past the check does not return without a job: an enabled promoter has its pool. -/
theorem passed_kept (enabled : promoter.enabled = true) (passed : phase.passed = true)
    (ran : promoter.program phase choice atomics = some (phase', atomics', labels)) :
    phase'.passed = true := by
  have pool := promoter.pool_of_enabled enabled
  unfold program at ran
  split at ran
  case h_1 => cases passed
  case h_2 =>
    split at ran
    · cases ran
      rfl
    · cases ran
      rfl
  case h_5 =>
    -- The only way back without a job is a promoter without a pool.
    rw [if_pos pool] at ran
    cases ran
    rfl
  case h_15 => cases ran
  all_goals
    cases ran
    rfl

theorem passed_run (enabled : promoter.enabled = true) {threads process : Nat}
    {ops : List PromotionOp} {system later : PromotionSystem}
    (ran : Runs.run (promoter.step threads) ops system = some later)
    (found : system.phases[process]? = some phase) (passed : phase.passed = true)
    (there : later.phases[process]? = some phase') : phase'.passed = true := by
  have kept := Runs.invariant_run
    (fun state : PromotionSystem => ∃ phase, state.phases[process]? = some phase ∧ phase.passed = true)
    (fun op before after holds taken => Interleaving.phase_kept
      (fun phase choice shared next past ran => passed_kept enabled past ran) taken holds)
    ⟨phase, found, passed⟩ ran
  obtain ⟨last, equal, past⟩ := kept
  rw [there] at equal
  cases equal
  exact past

theorem countedOnce_done (passed : phase.passed = true) (ended : phase.idle = true)
    (whole : phase.panicked = false) : CountedOnce phase.done := by
  cases phase with
  | dropped => exact .inl ⟨rfl, rfl, rfl⟩
  | finished blocking outcome elapsed =>
    cases outcome
    · exact .inr ⟨rfl, rfl, rfl⟩
    · exact .inr ⟨rfl, rfl, rfl⟩
  | aborted => cases whole
  | returned => cases passed
  | _ => cases ended

/-- The accounting of the promotion queue, in every state that calls and jobs can reach, as long as
the threads that call are fewer than the counter has values: no more jobs than the limit, no
operation takes the pending counter around, it is back at zero when nothing goes on, the statistics
are what was counted, and a call past the check that ends without a panic was counted once. -/
theorem promotion_queue_accounting (promoter : TierPromoter) (enabled : promoter.enabled = true)
    (threads : Nat) (bound : threads + promoter.maxPending < atomicRange) (ops : List PromotionOp)
    (system : PromotionSystem)
    (ran : Runs.run (promoter.step threads) ops idleSystem = some system) :
    system.total PromotionPhase.outstanding ≤ promoter.maxPending ∧
      (∀ op next, promoter.step threads op system = some next →
        next.shared.pending ≤ system.shared.pending + 1 ∧
          system.shared.pending ≤ next.shared.pending + 1) ∧
      ((∀ phase ∈ system.phases, phase.idle = true) → system.shared.pending = 0) ∧
      (∀ counter, system.shared.stats counter = added system.log counter % atomicRange) ∧
      ∀ earlier later start process phase phase', ops = earlier ++ later →
        Runs.run (promoter.step threads) earlier idleSystem = some start →
        start.phases[process]? = some phase → phase.passed = true →
        system.phases[process]? = some phase' → phase'.idle = true → phase'.panicked = false →
        CountedOnce (system.labelsOf process) := by
  have accounted := Accounted.run bound ran
  refine ⟨accounted.outstanding, ?_, ?_, accounted.stats, ?_⟩
  · intro op next taken
    exact (accounted.step bound taken).2
  · intro ended
    rw [accounted.pending]
    exact Interleaving.total_eq_zero fun phase member =>
      PromotionPhase.held_of_idle (ended phase member)
  · intro earlier later start process phase phase' split reached found passed there idle whole
    have continued : Runs.run (promoter.step threads) later start = some system := by
      rw [split, Runs.run_append, reached] at ran
      exact ran
    -- The log has under the call what the phase it ended in says it did.
    rw [accounted.logged.labels process phase' there]
    exact countedOnce_done (passed_run enabled continued found passed there) idle whole

end TierPromoter

namespace Sample

/-- A promoter with room for one job. -/
def narrowPromoter : TierPromoter := ⟨true, 1, true, 1, fun _ => rfl⟩

/-- A call is admitted and a second one refused, which is in the counter while the first job starts;
the job compiles in the end. -/
def crowdedPromotions : List PromotionOp :=
  [.start (.entered false), .start (.entered false),
    .move 0 (.observe false), .move 1 (.observe false), .move 0 .proceed, .move 1 .proceed,
    .move 0 .proceed, .move 0 .proceed, .move 1 .proceed, .move 1 .proceed,
    .move 0 .proceed, .move 0 (.compile true 7), .move 0 .proceed, .move 0 .proceed, .move 0 .proceed]

/-- Where both calls have ended. -/
def crowdedEnd : PromotionSystem where
  phases := [.finished false true 7, .dropped]
  shared := (((PromoterAtomics.zero.count ⟨.dropped, 1⟩).count ⟨.attempted, 1⟩).count
    ⟨.compileUs, 7⟩).count ⟨.succeeded, 1⟩
  log := [(1, ⟨.dropped, 1⟩), (0, ⟨.attempted, 1⟩), (0, ⟨.compileUs, 7⟩), (0, ⟨.succeeded, 1⟩)]

theorem crowdedPromotions_accounted :
    crowdedEnd.shared.pending = 0 ∧
      TierPromoter.CountedOnce (crowdedEnd.labelsOf 0) ∧
      TierPromoter.CountedOnce (crowdedEnd.labelsOf 1) := by
  have ran : Runs.run (narrowPromoter.step 2) crowdedPromotions TierPromoter.idleSystem =
      some crowdedEnd := rfl
  have bound : 2 + narrowPromoter.maxPending < atomicRange := by decide
  have facts := TierPromoter.promotion_queue_accounting narrowPromoter rfl 2 bound crowdedPromotions
    crowdedEnd ran
  obtain ⟨_, _, ended, _, once⟩ := facts
  exact ⟨ended (by decide),
    once crowdedPromotions [] crowdedEnd 0 _ _ rfl ran rfl rfl rfl rfl rfl,
    once crowdedPromotions [] crowdedEnd 1 _ _ rfl ran rfl rfl rfl rfl rfl⟩

end Sample

end Hpsvm
