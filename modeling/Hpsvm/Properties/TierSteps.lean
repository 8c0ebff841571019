import Hpsvm.Tiers

/-!
# Steps of the program tiers

What a thread can do, once for all results about the tiers: `Took` lists it, `Promotes` says what a
step of the promoter does to what the threads share. An entry keeps its program, and a compiled
program is never taken away.
-/

namespace Hpsvm

open Foundation

variable {κ : Type} {host : TierHost}

/-! ### Entries -/

namespace TierEntry

/-- The program stays, and a compiled program is never taken away. -/
def KeptBy (old new : TierEntry κ) : Prop :=
  new.program = old.program ∧ (old.compiled = true → new.compiled = true)

theorem KeptBy.refl (entry : TierEntry κ) : entry.KeptBy entry := ⟨rfl, id⟩

theorem keptBy_count (entry : TierEntry κ) (native : Bool) : entry.KeptBy (entry.count native) := by
  cases native
  · exact ⟨rfl, id⟩
  · exact ⟨rfl, id⟩

theorem keptBy_promotedTo (entry : TierEntry κ) (phase : PromotionPhase) :
    entry.KeptBy (entry.promotedTo phase) := by
  unfold promotedTo
  split
  · exact ⟨rfl, fun _ => rfl⟩
  · exact ⟨rfl, id⟩
  · exact ⟨rfl, id⟩

theorem promotedTo_interpreted (entry : TierEntry κ) (phase : PromotionPhase) :
    (entry.promotedTo phase).interpretedInvocations = entry.interpretedInvocations := by
  unfold promotedTo
  split <;> rfl

theorem of_compiled_promotedTo {entry : TierEntry κ} {phase : PromotionPhase}
    (compiled : (entry.promotedTo phase).compiled = true) :
    entry.compiled = true ∨ ∃ blocking elapsed, phase = .compiled blocking true elapsed := by
  unfold promotedTo at compiled
  split at compiled
  next blocking elapsed => exact .inr ⟨blocking, elapsed, rfl⟩
  · exact .inl compiled
  · exact .inl compiled

theorem kept_modify {entries : List (TierEntry κ)} {entry : Nat} {current : TierEntry κ}
    (there : entries[entry]? = some current) (other : Nat) {change : TierEntry κ → TierEntry κ}
    (keeps : ∀ old : TierEntry κ, old.KeptBy (change old)) :
    ∃ current', (entries.modify other change)[entry]? = some current' ∧
      current.KeptBy current' := by
  rw [List.getElem?_modify, there]
  by_cases same : other = entry
  · exact ⟨change current, by simp [same], keeps current⟩
  · exact ⟨current, by simp [same], .refl current⟩

theorem origin_of_modify {entries : List (TierEntry κ)} {entry other : Nat}
    {change : TierEntry κ → TierEntry κ} {current' : TierEntry κ}
    (there : (entries.modify other change)[entry]? = some current') :
    ∃ current, entries[entry]? = some current ∧
      current' = if other = entry then change current else current := by
  rw [List.getElem?_modify] at there
  obtain ⟨current, before, rfl⟩ := Option.map_eq_some_iff.1 there
  exact ⟨current, before, rfl⟩

theorem origin_of_concat {entries : List (TierEntry κ)} {entry : Nat} {new current' : TierEntry κ}
    (there : (entries ++ [new])[entry]? = some current') :
    entries[entry]? = some current' ∨ entry = entries.length ∧ current' = new := by
  rcases Nat.lt_trichotomy entry entries.length with before | same | after
  · rw [List.getElem?_append_left before] at there
    exact .inl there
  · subst same
    rw [List.getElem?_concat_length] at there
    exact .inr ⟨rfl, (Option.some.inj there).symm⟩
  · rw [List.getElem?_eq_none (by simp; omega)] at there
    cases there

end TierEntry

/-! ### The promoter -/

/-- The call or job has not come to compiling, and does it on this kind of thread. -/
def PromotionPhase.unsettled (blocking : Bool) : PromotionPhase → Bool
  | .entered other => other == blocking
  | .checked => !blocking
  | .refused => !blocking
  | .refunded => !blocking
  | .admitted => !blocking
  | .queued => !blocking
  | .started other => other == blocking
  | .attempted other => other == blocking
  | _ => false

namespace TierPhase

/-- Where a call leaves its caller. -/
theorem resume_cases (vm entry : Nat) (caller : PromotionCaller) (rest : List Nat)
    (call : PromotionPhase) :
    ((∃ done, call = .aborted done) ∧ resume vm entry caller rest call = (unwound vm : TierPhase κ)) ∨
    ((call.idle = true ∨ call = .queued) ∧ resume vm entry caller rest call =
      match caller with
      | .sweep => (sweep vm rest : TierPhase κ)
      | .prewarm => warm vm rest) ∨
    ((call.idle = false ∧ call ≠ .queued) ∧
      resume vm entry caller rest call = (promoting vm entry caller call rest : TierPhase κ)) := by
  unfold resume
  split
  next done => exact .inl ⟨⟨done, rfl⟩, rfl⟩
  · split
    next back => exact .inr (.inl ⟨by simpa using back, rfl⟩)
    next goes => exact .inr (.inr ⟨by simpa using goes, rfl⟩)

theorem key?_resume (vm entry : Nat) (caller : PromotionCaller) (rest : List Nat)
    (call : PromotionPhase) : (resume vm entry caller rest call : TierPhase κ).key? = none := by
  rcases resume_cases vm entry caller rest call with ⟨_, stopped⟩ | ⟨_, returned⟩ | ⟨_, goes⟩
  · rw [stopped]
    rfl
  · rw [returned]
    cases caller <;> rfl
  · rw [goes]
    rfl

theorem key?_dispatch (vm entry : Nat) (job : PromotionPhase) :
    (dispatch vm entry job : TierPhase κ).key? = none := by
  cases job <;> rfl

end TierPhase

namespace TierHost

theorem enabled_iff (host : TierHost) (vm : Nat) :
    (host.promoter vm).enabled = true ↔ ∃ threshold, host.policy vm = .lazy threshold ∧
      host.target.x86 = true ∧ (host.vms vm).poolBuilds = true := by
  unfold promoter TierPromoter.new JitPolicy.effective
  cases host.target.x86 <;> cases host.policy vm <;> simp

theorem threshold_of_lazy {vm threshold : Nat} (policy : host.policy vm = .lazy threshold)
    (x86 : host.target.x86 = true) : (host.promoter vm).threshold = threshold := by
  simp [promoter, TierPromoter.new, JitPolicy.effective, policy, x86]

theorem isLazy_iff (host : TierHost) (vm : Nat) :
    (host.policy vm).isLazy host.target.x86 = true ↔
      ∃ threshold, host.policy vm = .lazy threshold ∧ host.target.x86 = true := by
  unfold JitPolicy.isLazy JitPolicy.hotThreshold JitPolicy.effective
  cases host.target.x86 <;> cases host.policy vm <;> simp

theorem eager_of_loadsNative (host : TierHost) (vm : Nat) (native : host.loadsNative vm = true) :
    host.policy vm = .eager ∧ host.target.hasJit = true := by
  unfold loadsNative at native
  split at native
  · cases native
  next compiles =>
    have x86 : host.target.x86 = true := Bool.and_elim_left native
    refine ⟨?_, native⟩
    cases policy : host.policy vm with
    | eager => rfl
    | _ => simp [policy, x86, JitPolicy.requiresUncompiledLoad] at compiles

/-- What a step of a call or job does to what the threads share. -/
structure Promotes (host : TierHost) (vm entry : Nat) (call : PromotionPhase) (tiers : Tiers κ)
    (call' : PromotionPhase) (tiers' : Tiers κ) (events : List TierEvent) : Prop where
  entries : tiers'.entries = tiers.entries.modify entry fun current => current.promotedTo call'
  store : tiers'.store = tiers.store
  queue : tiers'.queue = tiers.queue
  events : events = promotionEvents vm entry call'
  compiles : ∀ blocking elapsed, call' = .compiled blocking true elapsed →
    host.target.hasJit = true
  settles : ∀ blocking, (host.promoter vm).enabled = true → call.unsettled blocking = true →
    call'.unsettled blocking = true ∨
    (call' = .returned ∧
      ∃ current, tiers.entries[entry]? = some current ∧ current.compiled = true) ∨
    call' = .dropped ∨ (∃ done, call' = .unwinding blocking done) ∨
    ∃ outcome elapsed, call' = .compiled blocking outcome elapsed

/-- What `compile_entry` answers is what a phase past it says. -/
theorem compile_of_program {promoter : TierPromoter} {call : PromotionPhase}
    {choice : PromotionChoice} {atomics atomics' : PromoterAtomics} {counted : List Counted}
    {blocking outcome : Bool} {elapsed : Nat}
    (ran : promoter.program call choice atomics =
      some (.compiled blocking outcome elapsed, atomics', counted)) :
    ∃ micros, choice = .compile outcome micros := by
  unfold TierPromoter.program at ran
  split at ran
  case h_8 other answer micros =>
    cases ran
    exact ⟨micros, rfl⟩
  all_goals grind

/-- Where an unsettled call or job goes next. -/
theorem settles_of_program {promoter : TierPromoter} {call call' : PromotionPhase}
    {choice : PromotionChoice} {atomics atomics' : PromoterAtomics} {counted : List Counted}
    {blocking : Bool} (enabled : promoter.enabled = true)
    (unsettled : call.unsettled blocking = true)
    (ran : promoter.program call choice atomics = some (call', atomics', counted)) :
    call'.unsettled blocking = true ∨ (call' = .returned ∧ choice = .observe true) ∨
    call' = .dropped ∨ (∃ done, call' = .unwinding blocking done) ∨
    ∃ outcome elapsed, call' = .compiled blocking outcome elapsed := by
  have pool := promoter.pool_of_enabled enabled
  unfold TierPromoter.program at ran
  split at ran
  all_goals grind [PromotionPhase.unsettled]

theorem promotes_of_promotionStep {vm entry : Nat} {call call' : PromotionPhase}
    {choice : TierChoice} {tiers tiers' : Tiers κ} {events : List TierEvent}
    (ran : host.promotionStep vm entry call choice tiers = some (call', tiers', events)) :
    Promotes host vm entry call tiers call' tiers' events := by
  obtain ⟨current, there, ran⟩ := Option.bind_eq_some_iff.1 ran
  obtain ⟨inner, chosen, ran⟩ := Option.bind_eq_some_iff.1 ran
  obtain ⟨⟨next, atomics, counted⟩, moved, ran⟩ := Option.bind_eq_some_iff.1 ran
  obtain ⟨rfl, rfl, rfl⟩ := Prod.mk.inj (Option.some.inj ran)
  refine ⟨rfl, rfl, rfl, rfl, ?_, ?_⟩
  · intro blocking elapsed compiled
    rw [compiled] at moved
    obtain ⟨micros, rfl⟩ := compile_of_program moved
    unfold promotionChoice at chosen
    grind [TierEntry.compileEntry]
  · intro blocking enabled unsettled
    rcases settles_of_program enabled unsettled moved with
      still | ⟨returned, rfl⟩ | dropped | unwinding | compiled
    · exact .inl still
    · -- The check found the program compiled.
      refine .inr (.inl ⟨returned, current, there, ?_⟩)
      unfold promotionChoice at chosen
      grind [TierEntry.hasCompiledProgram]
    · exact .inr (.inr (.inl dropped))
    · exact .inr (.inr (.inr (.inl unwinding)))
    · exact .inr (.inr (.inr (.inr compiled)))
/-! ### Events -/

theorem countP_promotionEvents (vm entry : Nat) (call : PromotionPhase) (other : Nat)
    (native : Bool) :
    (promotionEvents vm entry call).countP (fun event => event = .ran other native) = 0 := by
  unfold promotionEvents
  split <;> simp

/-- What a step does to the count of interpreted invocations, and what it reports of it. -/
def Counts (entry before after : Nat) (events : List TierEvent) : Prop :=
  (after = before ∧ events.countP (fun event => event = .ran entry false) = 0) ∨
  (after = (before + 1) % atomicRange ∧ events.countP (fun event => event = .ran entry false) = 1)

theorem counts_ran (other entry : Nat) (native : Bool) (current : TierEntry κ) :
    Counts entry current.interpretedInvocations
      (if other = entry then current.count native else current).interpretedInvocations
      [.ran other native] := by
  by_cases same : other = entry
  · subst same
    cases native with
    | true => exact .inl ⟨by simp [TierEntry.count], by simp⟩
    | false => exact .inr ⟨by simp [TierEntry.count], by simp⟩
  · exact .inl ⟨by simp [same], by simp [same]⟩

/-- A promotion leaves the invocations alone, and reports that it published a program. -/
theorem promotedTo_effect (vm entry other : Nat) (call : PromotionPhase) (current : TierEntry κ) :
    ((if entry = other then current.promotedTo call else current).compiled = true →
      current.compiled = true ∨ TierEvent.promoted vm other true ∈ promotionEvents vm entry call) ∧
    Counts other current.interpretedInvocations
      (if entry = other then current.promotedTo call else current).interpretedInvocations
      (promotionEvents vm entry call) := by
  have uncounted := countP_promotionEvents vm entry call other false
  by_cases same : entry = other
  · subst same
    simp only [if_pos]
    refine ⟨?_, .inl ⟨current.promotedTo_interpreted call, uncounted⟩⟩
    intro compiled
    rcases TierEntry.of_compiled_promotedTo compiled with before | ⟨blocking, elapsed, rfl⟩
    · exact .inl before
    · exact .inr (by simp [promotionEvents])
  · simp only [same, if_false]
    exact ⟨.inl, .inl ⟨rfl, uncounted⟩⟩

/-! ### One step -/

section

variable [DecidableEq κ]

/-- Everything a thread can do. -/
inductive Took (host : TierHost) :
    TierPhase κ → Tiers κ → TierPhase κ → Tiers κ → List TierEvent → Prop
  | hit {phase vm key resident tiers}
      (asks : phase = .load vm key ∨ ∃ entry, phase = .fresh vm key entry)
      (found : (tiers.store.get key).1 = some resident) :
      Took host phase tiers (.linked vm (some key) resident)
        { tiers with store := (tiers.store.get key).2 } []
  | missed {vm key tiers} (absent : (tiers.store.get key).1 = none) :
      Took host (.load vm key) tiers (.missed vm key)
        { tiers with store := (tiers.store.get key).2 } []
  | loaded {vm key tiers} :
      Took host (.missed vm key) tiers (.fresh vm key tiers.entries.length)
        (tiers.allocate (.fresh (some key) (host.loadsNative vm)))
        [.loaded vm tiers.entries.length (host.loadsNative vm)]
  | refused {vm key tiers} : Took host (.missed vm key) tiers (.refused vm key) tiers []
  | inserted {vm key entry tiers} (absent : (tiers.store.get key).1 = none) :
      Took host (.fresh vm key entry) tiers (.linked vm (some key) entry)
        { tiers with store := (tiers.store.get key).2.put key entry } []
  | installed {vm tiers} :
      Took host (.install vm) tiers (.linked vm none tiers.entries.length)
        (tiers.allocate (.fresh none false)) []
  | invoked {entry current tiers} (there : tiers.entries[entry]? = some current) :
      Took host (.invoke entry) tiers (.running entry (current.hasCompiledProgram host.target)) tiers []
  | counted {entry native tiers} :
      Took host (.running entry native) tiers .invoked
        (tiers.update entry fun current => current.count native) [.ran entry native]
  | idle {vm entries tiers} (disabled : (host.promoter vm).enabled = false) :
      Took host (.observe vm entries) tiers (.ended vm) tiers []
  | observed {vm entries tiers} (enabled : (host.promoter vm).enabled = true) :
      Took host (.observe vm entries) tiers (.sweep vm entries) tiers []
  | swept {vm tiers} : Took host (.sweep vm []) tiers (.ended vm) tiers []
  | skipped {vm entry rest current tiers} (there : tiers.entries[entry]? = some current)
      (nothing : current.hasCompiledProgram host.target = true ∨ current.isLoaded = false) :
      Took host (.sweep vm (entry :: rest)) tiers (.sweep vm rest) tiers []
  | blocked {vm entry rest tiers} (zero : (host.promoter vm).threshold = 0) :
      Took host (.sweep vm (entry :: rest)) tiers
        (.promoting vm entry .sweep (.entered true) rest) tiers []
  | seen {vm entry rest tiers} (positive : (host.promoter vm).threshold ≠ 0) :
      Took host (.sweep vm (entry :: rest)) tiers (.seen vm entry rest) tiers []
  | cold {vm entry rest current tiers} (there : tiers.entries[entry]? = some current)
      (few : current.interpretedInvocations < (host.promoter vm).threshold) :
      Took host (.seen vm entry rest) tiers (.sweep vm rest) tiers []
  | hot {vm entry rest current tiers} (there : tiers.entries[entry]? = some current)
      (many : (host.promoter vm).threshold ≤ current.interpretedInvocations) :
      Took host (.seen vm entry rest) tiers
        (.promoting vm entry .sweep (.entered false) rest) tiers []
  | unlazy {vm entries tiers} : Took host (.prewarm vm entries) tiers (.ended vm) tiers []
  | prewarmed {vm entries tiers} (isLazy : (host.policy vm).isLazy host.target.x86 = true) :
      Took host (.prewarm vm entries) tiers (.gather vm entries []) tiers []
  | gathered {vm entry rest kept kept' tiers} :
      Took host (.gather vm (entry :: rest) kept) tiers (.gather vm rest kept') tiers []
  | warming {vm kept tiers} : Took host (.gather vm [] kept) tiers (.warm vm kept) tiers []
  | warmed {vm tiers} : Took host (.warm vm []) tiers (.ended vm) tiers []
  | warms {vm entry rest blocking tiers} :
      Took host (.warm vm (entry :: rest)) tiers
        (.promoting vm entry .prewarm (.entered blocking) rest) tiers [.prewarmed vm entry]
  | promotes {vm entry caller call rest call' tiers tiers' events}
      (promotes : Promotes host vm entry call tiers call' tiers' events) :
      Took host (.promoting vm entry caller call rest) tiers (.resume vm entry caller rest call')
        { tiers' with
          queue := if call' = .queued then tiers'.queue ++ [(vm, entry)] else tiers'.queue } events
  | taken {vm entry job tiers} (queued : tiers.queue[job]? = some (vm, entry)) :
      Took host (.worker vm) tiers (.working vm entry .queued)
        { tiers with queue := tiers.queue.eraseIdx job } []
  | works {vm entry job job' tiers tiers' events}
      (promotes : Promotes host vm entry job tiers job' tiers' events) :
      Took host (.working vm entry job) tiers (.dispatch vm entry job') tiers' events

theorem took_of_program {phase phase' : TierPhase κ} {choice : TierChoice} {tiers tiers' : Tiers κ}
    {events : List TierEvent}
    (ran : host.program phase choice tiers = some (phase', tiers', events)) :
    Took host phase tiers phase' tiers' events := by
  unfold program at ran
  split at ran
  case h_1 vm key =>
    split at ran
    next resident store looked =>
      cases ran
      have store_eq : store = (tiers.store.get key).2 := by rw [looked]
      subst store_eq
      exact .hit (.inl rfl) (by rw [looked])
    next store looked =>
      cases ran
      have store_eq : store = (tiers.store.get key).2 := by rw [looked]
      subst store_eq
      exact .missed (by rw [looked])
  case h_2 vm key ok =>
    split at ran
    · cases ran
      exact .loaded
    · cases ran
      exact .refused
  case h_3 vm key entry =>
    split at ran
    next resident store looked =>
      cases ran
      have store_eq : store = (tiers.store.get key).2 := by rw [looked]
      subst store_eq
      exact .hit (.inr ⟨entry, rfl⟩) (by rw [looked])
    next store looked =>
      cases ran
      have store_eq : store = (tiers.store.get key).2 := by rw [looked]
      subst store_eq
      exact .inserted (by rw [looked])
  case h_4 vm =>
    cases ran
    exact .installed
  case h_5 entry =>
    obtain ⟨current, there, ran⟩ := Option.bind_eq_some_iff.1 ran
    split at ran
    · cases ran
      exact .invoked there
    · cases ran
  case h_6 entry native =>
    cases ran
    exact .counted
  case h_7 vm entries =>
    cases ran
    split
    next enabled => exact .observed enabled
    next disabled => exact .idle (by simpa using disabled)
  case h_8 vm =>
    cases ran
    exact .swept
  case h_9 vm entry rest =>
    obtain ⟨current, there, ran⟩ := Option.bind_eq_some_iff.1 ran
    split at ran
    next nothing =>
      cases ran
      exact .skipped there (by simpa using nothing)
    · split at ran
      next zero =>
        cases ran
        exact .blocked zero
      next positive =>
        cases ran
        exact .seen positive
  case h_10 vm entry rest =>
    obtain ⟨current, there, ran⟩ := Option.bind_eq_some_iff.1 ran
    split at ran
    next few =>
      cases ran
      exact .cold there few
    next many =>
      cases ran
      exact .hot there (Nat.le_of_not_lt many)
  case h_11 vm entries =>
    cases ran
    split
    next isLazy => exact .prewarmed isLazy
    · exact .unlazy
  case h_12 vm kept =>
    cases ran
    exact .warming
  case h_13 vm entry rest kept =>
    obtain ⟨current, there, ran⟩ := Option.bind_eq_some_iff.1 ran
    split at ran
    · cases ran
      exact .gathered
    · cases ran
      exact .gathered
  case h_14 vm =>
    cases ran
    exact .warmed
  case h_15 vm entry rest =>
    cases ran
    exact .warms
  case h_16 vm entry caller call rest =>
    obtain ⟨⟨call', shared, reported⟩, stepped, ran⟩ := Option.bind_eq_some_iff.1 ran
    cases ran
    exact .promotes (promotes_of_promotionStep stepped)
  case h_17 vm job =>
    obtain ⟨⟨owner, entry⟩, queued, ran⟩ := Option.bind_eq_some_iff.1 ran
    dsimp only at ran
    split at ran
    next same =>
      cases ran
      subst same
      exact .taken queued
    · cases ran
  case h_18 vm entry job =>
    obtain ⟨⟨job', shared, reported⟩, stepped, ran⟩ := Option.bind_eq_some_iff.1 ran
    cases ran
    exact .works (promotes_of_promotionStep stepped)
  case h_19 => cases ran

theorem Took.entry_kept {phase phase' : TierPhase κ} {tiers tiers' : Tiers κ}
    {events : List TierEvent} (took : Took host phase tiers phase' tiers' events) {entry : Nat}
    {current : TierEntry κ} (there : tiers.entries[entry]? = some current) :
    ∃ current', tiers'.entries[entry]? = some current' ∧ current.KeptBy current' := by
  have inside : entry < tiers.entries.length := (List.getElem?_eq_some_iff.1 there).1
  cases took with
  | loaded =>
    exact ⟨current, by simpa [Tiers.allocate, List.getElem?_append_left inside], .refl current⟩
  | installed =>
    exact ⟨current, by simpa [Tiers.allocate, List.getElem?_append_left inside], .refl current⟩
  | counted => exact TierEntry.kept_modify there _ fun old => old.keptBy_count _
  | promotes promotes =>
    simp only [promotes.entries]
    exact TierEntry.kept_modify there _ fun old => old.keptBy_promotedTo _
  | works promotes =>
    simp only [promotes.entries]
    exact TierEntry.kept_modify there _ fun old => old.keptBy_promotedTo _
  | _ => exact ⟨current, there, .refl current⟩

theorem Took.length_le {phase phase' : TierPhase κ} {tiers tiers' : Tiers κ}
    {events : List TierEvent} (took : Took host phase tiers phase' tiers' events) :
    tiers.entries.length ≤ tiers'.entries.length := by
  cases took with
  | promotes promotes => simp [promotes.entries]
  | works promotes => simp [promotes.entries]
  | _ => simp [Tiers.allocate, Tiers.update]

/-- Where an entry comes from, and what a step did to it. -/
theorem Took.entry_origin {phase phase' : TierPhase κ} {tiers tiers' : Tiers κ}
    {events : List TierEvent} (took : Took host phase tiers phase' tiers' events) {entry : Nat}
    {current' : TierEntry κ} (there : tiers'.entries[entry]? = some current') :
    (∃ current, tiers.entries[entry]? = some current ∧
      (current'.compiled = true →
        current.compiled = true ∨ ∃ vm, TierEvent.promoted vm entry true ∈ events) ∧
      Counts entry current.interpretedInvocations current'.interpretedInvocations events) ∨
    (entry = tiers.entries.length ∧
      (current'.compiled = true → ∃ vm, TierEvent.loaded vm entry true ∈ events) ∧
      Counts entry 0 current'.interpretedInvocations events) := by
  cases took with
  | @loaded vm key _ =>
    rcases TierEntry.origin_of_concat there with before | ⟨rfl, rfl⟩
    · exact .inl ⟨current', before, .inl, .inl ⟨rfl, by simp⟩⟩
    · refine .inr ⟨rfl, ?_, .inl ⟨rfl, by simp⟩⟩
      intro compiled
      have native : host.loadsNative vm = true := compiled
      exact ⟨vm, by simp [native]⟩
  | installed =>
    rcases TierEntry.origin_of_concat there with before | ⟨rfl, rfl⟩
    · exact .inl ⟨current', before, .inl, .inl ⟨rfl, rfl⟩⟩
    · exact .inr ⟨rfl, nofun, .inl ⟨rfl, rfl⟩⟩
  | @counted other native _ =>
    obtain ⟨current, before, rfl⟩ := TierEntry.origin_of_modify there
    refine .inl ⟨current, before, ?_, counts_ran other entry native current⟩
    intro compiled
    split at compiled
    · cases native
      · exact .inl compiled
      · exact .inl compiled
    · exact .inl compiled
  | promotes promotes =>
    rw [promotes.entries] at there
    obtain ⟨current, before, rfl⟩ := TierEntry.origin_of_modify there
    rw [promotes.events]
    obtain ⟨published, counts⟩ := promotedTo_effect _ _ entry _ current
    exact .inl ⟨current, before, fun compiled => (published compiled).imp id fun event => ⟨_, event⟩,
      counts⟩
  | works promotes =>
    rw [promotes.entries] at there
    obtain ⟨current, before, rfl⟩ := TierEntry.origin_of_modify there
    rw [promotes.events]
    obtain ⟨published, counts⟩ := promotedTo_effect _ _ entry _ current
    exact .inl ⟨current, before, fun compiled => (published compiled).imp id fun event => ⟨_, event⟩,
      counts⟩
  | warms => exact .inl ⟨current', there, .inl, .inl ⟨rfl, by simp⟩⟩
  | _ => exact .inl ⟨current', there, .inl, .inl ⟨rfl, rfl⟩⟩

/-- A job waits because it did before, or because a call of the promoter has just spawned it. -/
theorem Took.queue_cases {phase phase' : TierPhase κ} {tiers tiers' : Tiers κ}
    {events : List TierEvent} (took : Took host phase tiers phase' tiers' events) {vm entry : Nat}
    (waits : (vm, entry) ∈ tiers'.queue) :
    (vm, entry) ∈ tiers.queue ∨
      ∃ caller call rest, phase = .promoting vm entry caller call rest := by
  cases took with
  | @promotes owner other caller call rest call' _ _ _ promotes =>
    rw [promotes.queue] at waits
    split at waits
    · rcases List.mem_append.1 waits with before | now
      · exact .inl before
      · cases List.mem_singleton.1 now
        exact .inr ⟨caller, call, rest, rfl⟩
    · exact .inl waits
  | taken queued => exact .inl (List.mem_of_mem_eraseIdx waits)
  | works promotes =>
    rw [promotes.queue] at waits
    exact .inl waits
  | _ => exact .inl waits

end

end TierHost

end Hpsvm
