import TraceDebug.Proofs.Session.Location

/-!
# Loads in flight

Of all loads in flight, at most the one of the current generation is waited for. What
the others come to is dropped, whatever it is; so a loaded trace is always what the last
load that was let in has fetched, from the provider of the time when it began.
-/

namespace TraceDebug

namespace Session

variable {s : Session}

theorem beginLoad_loading (loading : s.status = .loading) (designation : TransactionRef) :
    s.beginLoad designation = { session := s, result := none } := by
  rw [beginLoad, if_pos loading]

theorem beginLoad_free (free : s.status ≠ .loading) (designation : TransactionRef) :
    s.generation < (s.beginLoad designation).session.generation ∧
      (s.beginLoad designation).session.status = .loading ∧
      (s.beginLoad designation).result =
        some ⟨(s.beginLoad designation).session.generation, s.provider, designation⟩ := by
  have kept : s.generation ≤ s.unload.session.generation ∧
      s.unload.session.provider = s.provider := by
    unfold unload
    split <;> simp
  rw [beginLoad, if_neg free]
  exact ⟨Nat.lt_succ_of_le kept.1, rfl, by rw [← kept.2]⟩

theorem beginLoad_eq_none_iff (designation : TransactionRef) :
    (s.beginLoad designation).result = none ↔ s.status = .loading := by
  by_cases loading : s.status = .loading
  · simp [beginLoad_loading loading, loading]
  · simp [(beginLoad_free loading designation).2.2, loading]

/-- An unload raises the generation, or finds nothing to unload. -/
theorem unload_cases (consistent : s.Consistent) :
    s.unload.session = s ∨ s.generation < s.unload.session.generation ∧
      s.unload.session.status = .unloaded ∧ s.unload.session.loaded = none := by
  have dropped := loaded_unload consistent
  unfold unload at dropped ⊢
  split
  · exact .inr ⟨Nat.lt_succ_self _, rfl, rfl⟩
  · next loading => exact .inr ⟨Nat.lt_succ_self _, rfl, by simpa [loading] using dropped⟩
  · exact .inl rfl
  · exact .inl rfl

theorem commitLoad_superseded {generation : Nat}
    (old : s.generation ≠ generation ∨ s.status ≠ .loading)
    (answer : Except LoadError LoadedTrace) :
    s.commitLoad generation answer = { session := s, result := .ok .cancelled } := by
  unfold commitLoad
  rw [if_pos old]

/-- The load that is waited for fails, or its trace is installed. -/
theorem commitLoad_awaited {generation : Nat} (current : s.generation = generation)
    (loading : s.status = .loading) (answer : Except LoadError LoadedTrace) :
    (∃ error, s.commitLoad generation answer =
        { session := { s with status := .idle }, result := .error error }) ∨
      ∃ loaded, answer = .ok loaded ∧
        (s.commitLoad generation answer).session.status = .loaded ∧
        (s.commitLoad generation answer).session.generation = s.generation ∧
        (s.commitLoad generation answer).session.loaded = some loaded ∧
        (s.commitLoad generation answer).result = .ok (.loaded loaded.length) := by
  have accepted : ¬ (s.generation ≠ generation ∨ s.status ≠ .loading) := by
    simp [current, loading]
  unfold commitLoad
  rw [if_neg accepted]
  cases answer with
  | error error => exact .inl ⟨error, rfl⟩
  | ok loaded =>
    cases created : Navigator.new? loaded.length with
    | none =>
      refine .inl ⟨.emptyTrace loaded.transaction.hash, ?_⟩
      simp only [created]
    | some navigator => exact .inr ⟨loaded, rfl, by simp [created, moved]⟩

end Session

/-- The action ends the load in a place with what it came to. -/
inductive Action.Completes : Action → Nat → Except LoadError LoadedTrace → Prop where
  | answered (place : Nat) (transaction : Transaction) (answer : Except Causes Trace) :
      Completes (.answerLoad place transaction answer) place (indexAnswer transaction answer)
  | failed (place : Nat) (error : LoadError) : Completes (.failLoad place error) place (.error error)

theorem Action.Completes.exists_answer {action : Action} {place : Nat}
    {answer : Except LoadError LoadedTrace} (h : action.Completes place answer)
    {loaded : LoadedTrace} (ok : answer = .ok loaded) :
    ∃ transaction answer, action = .answerLoad place transaction answer ∧
      indexAnswer transaction answer = .ok loaded := by
  cases h with
  | answered _ transaction answer => exact ⟨transaction, answer, rfl, ok⟩
  | failed => cases ok

/-- What a provider that answers gives for a designation. -/
def Provider.fetch (p : Provider) (designation : TransactionRef) :
    Except LoadError LoadedTrace := do
  let transaction ← p.resolve designation
  indexAnswer transaction (p.trace transaction)

namespace Activity

/-- The loads in flight that carry the current generation. -/
def awaited (x : Activity) : List LoadTicket :=
  x.loads.filter (·.generation = x.session.generation)

/-- What an action does to the loads and to what the session has loaded. -/
inductive LoadStep (x : Activity) (action : Action) (y : Activity) : Prop where
  | begun {designation : TransactionRef} {ticket : LoadTicket}
      (named : action = .beginLoad designation)
      (letIn : (x.session.beginLoad designation).result = some ticket)
      (loads : y.loads = x.loads ++ [ticket]) (current : ticket.generation = y.session.generation)
      (later : x.session.generation < y.session.generation)
      (loading : y.session.status = .loading) (empty : y.session.loaded = none)
  | unloaded (named : action = .unload) (loads : y.loads = x.loads)
      (later : x.session.generation < y.session.generation)
      (unloaded : y.session.status = .unloaded) (empty : y.session.loaded = none)
  | superseded {place : Nat} {ticket : LoadTicket} {answer : Except LoadError LoadedTrace}
      (completes : action.Completes place answer) (found : x.loads[place]? = some ticket)
      (loads : y.loads = x.loads.eraseIdx place)
      (old : x.session.generation ≠ ticket.generation ∨ x.session.status ≠ .loading)
      (session : y.session = x.session)
  | failed {place : Nat} {ticket : LoadTicket} {answer : Except LoadError LoadedTrace}
      (completes : action.Completes place answer) (found : x.loads[place]? = some ticket)
      (loads : y.loads = x.loads.eraseIdx place)
      (current : x.session.generation = ticket.generation) (loading : x.session.status = .loading)
      (session : y.session = { x.session with status := .idle })
  | installed {place : Nat} {ticket : LoadTicket} {loaded : LoadedTrace}
      (completes : action.Completes place (.ok loaded)) (found : x.loads[place]? = some ticket)
      (loads : y.loads = x.loads.eraseIdx place)
      (current : x.session.generation = ticket.generation) (loading : x.session.status = .loading)
      (status : y.session.status = .loaded) (generation : y.session.generation = x.session.generation)
      (trace : y.session.loaded = some loaded)
  | other (ignored : ∀ designation, action = .beginLoad designation → x.session.status = .loading)
      (keeps : x.session.KeepsTrace y.session) (loads : y.loads = x.loads)

variable {x : Activity} {action : Action}

theorem perform_completes {place : Nat} {answer : Except LoadError LoadedTrace}
    (completes : action.Completes place answer) : x.perform action = x.endLoad place answer := by
  cases completes <;> rfl

theorem loadStep_endLoad {place : Nat} {answer : Except LoadError LoadedTrace}
    (completes : action.Completes place answer) : LoadStep x action (x.endLoad place answer) := by
  unfold endLoad
  split
  · refine .other ?_ ⟨rfl, rfl, rfl⟩ rfl
    rintro designation rfl
    cases completes
  · next ticket found =>
    by_cases old : x.session.generation ≠ ticket.generation ∨ x.session.status ≠ .loading
    · rw [Session.commitLoad_superseded old]
      exact .superseded completes found rfl old rfl
    · obtain ⟨current, loading⟩ : x.session.generation = ticket.generation ∧
          x.session.status = .loading := by simpa using old
      rcases Session.commitLoad_awaited current loading answer with
        ⟨error, failed⟩ | ⟨loaded, rfl, status, generation, trace, -⟩
      · rw [failed]
        exact .failed completes found rfl current loading rfl
      · exact .installed completes found rfl current loading status generation trace

theorem loads_perform (navigates : action.Navigates) : (x.perform action).loads = x.loads := by
  cases navigates with
  | move =>
    simp only [perform, move]
    split <;> rfl
  | resumeContinue =>
    simp only [perform, resumeContinue]
    split
    · rfl
    · split <;> rfl
  | finishResolution =>
    simp only [perform, finishResolution]
    split
    · rfl
    · split <;> rfl
  | _ => rfl

theorem loadStep (consistent : x.session.Consistent) (action : Action) :
    LoadStep x action (x.perform action) := by
  have navigation : action.Navigates → LoadStep x action (x.perform action) := by
    intro navigates
    obtain ⟨pending, events, started, steers⟩ := x.steers_perform navigates
    refine .other ?_ steers.keepsTrace (loads_perform navigates)
    rintro designation rfl
    cases navigates
  have edit : ∀ y : Activity, (∀ designation, action ≠ .beginLoad designation) →
      x.session.KeepsTrace y.session → y.loads = x.loads → LoadStep x action y :=
    fun y unnamed => .other fun designation named => absurd named (unnamed designation)
  cases action with
  | beginLoad designation =>
    by_cases loading : x.session.status = .loading
    · have same : x.perform (.beginLoad designation) = x := by
        simp [perform, beginLoad, Session.beginLoad_loading loading, take]
      rw [same]
      exact .other (fun _ _ => loading) ⟨rfl, rfl, rfl⟩ rfl
    · obtain ⟨later, status, letIn⟩ := Session.beginLoad_free loading designation
      have loads : (x.beginLoad designation).loads =
          x.loads ++ (x.session.beginLoad designation).result.toList := rfl
      rw [letIn] at loads
      have unloads := Session.loaded_beginLoad consistent designation
      exact .begun rfl letIn loads rfl later status unloads
  | answerLoad place transaction answer =>
    exact loadStep_endLoad (.answered place transaction answer)
  | failLoad place error => exact loadStep_endLoad (.failed place error)
  | unload =>
    rcases Session.unload_cases consistent with same | ⟨later, unloaded, empty⟩
    · refine edit _ (by simp) ?_ rfl
      rw [perform, take, same]
      exact ⟨rfl, rfl, rfl⟩
    · exact .unloaded rfl rfl later unloaded empty
  | setProvider provider => exact edit _ (by simp) ⟨rfl, rfl, rfl⟩ rfl
  | setArtifact artifact => exact edit _ (by simp) ⟨rfl, rfl, rfl⟩ rfl
  | addBreakpoint b => exact edit _ (by simp) ⟨rfl, rfl, rfl⟩ rfl
  | removeBreakpoint b => exact edit _ (by simp) ⟨rfl, rfl, rfl⟩ rfl
  | clearBreakpoints => exact edit _ (by simp) ⟨rfl, rfl, rfl⟩ rfl
  | jumpTo index => exact navigation (.jumpTo index)
  | move movement => exact navigation (.move movement)
  | beginContinue direction => exact navigation (.beginContinue direction)
  | resumeContinue number => exact navigation (.resumeContinue number)
  | finishResolution place => exact navigation (.finishResolution place)
  | crashResolution place => exact navigation (.crashResolution place)

/-- The generations of loads ascend in the order in which they began. Just while the
session is loading, one of the loads in flight carries its generation. -/
structure Ticketed (x : Activity) : Prop where
  ascending : x.loads.Pairwise (·.generation < ·.generation)
  past : ∀ ticket ∈ x.loads, ticket.generation ≤ x.session.generation
  count : x.awaited.length = if x.session.status = .loading then 1 else 0

theorem ticketed_start (config : SessionConfig) (provider : Provider) (converter : Converter) :
    (start config provider converter).Ticketed where
  ascending := .nil
  past := nofun
  count := rfl

/-- When the generation has gone on, no load in flight is waited for any more. -/
theorem Ticketed.outdated (h : x.Ticketed) {generation : Nat}
    (later : x.session.generation < generation) :
    x.loads.filter (·.generation = generation) = [] := by
  apply List.filter_eq_nil_iff.mpr
  intro ticket mem
  have old := h.past ticket mem
  simp only [decide_eq_true_eq]
  omega

theorem length_awaited_eraseIdx {y : Activity} {place : Nat} {ticket : LoadTicket}
    (found : x.loads[place]? = some ticket)
    (generation : y.session.generation = x.session.generation)
    (loads : y.loads = x.loads.eraseIdx place) :
    x.awaited.length =
      y.awaited.length + if ticket.generation = x.session.generation then 1 else 0 := by
  rw [awaited, awaited, generation, loads, length_filter_eraseIdx found]
  simp

/-- A load of the present generation is waited for. -/
theorem Ticketed.loading_of_current (h : x.Ticketed) {ticket : LoadTicket} (mem : ticket ∈ x.loads)
    (current : ticket.generation = x.session.generation) : x.session.status = .loading := by
  by_contra idle
  have none := h.count
  rw [if_neg idle, List.length_eq_zero_iff] at none
  have waited : ticket ∈ x.awaited := List.mem_filter.mpr ⟨mem, decide_eq_true current⟩
  rw [none] at waited
  cases waited

/-- The session goes on loading when a load ends, unless it is the one that it waits for. -/
theorem Ticketed.ended {y : Activity} (h : x.Ticketed) {place : Nat} {ticket : LoadTicket}
    (found : x.loads[place]? = some ticket) (loads : y.loads = x.loads.eraseIdx place)
    (generation : y.session.generation = x.session.generation)
    (count : (if x.session.status = .loading then 1 else 0) =
      (if y.session.status = .loading then 1 else 0) +
        if ticket.generation = x.session.generation then 1 else 0) : y.Ticketed where
  ascending := by
    rw [loads]
    exact h.ascending.sublist (List.eraseIdx_sublist ..)
  past := by
    rw [loads, generation]
    exact fun other mem => h.past other (List.mem_of_mem_eraseIdx mem)
  count := by
    have fewer := length_awaited_eraseIdx found generation loads
    rw [h.count, count] at fewer
    exact (Nat.add_right_cancel fewer).symm

theorem Ticketed.loadStep {y : Activity} (h : x.Ticketed) (step : LoadStep x action y) :
    y.Ticketed := by
  cases step with
  | @begun _ ticket _ _ loads current later loading =>
    have none := h.outdated later
    refine ⟨?_, ?_, ?_⟩
    · rw [loads, List.pairwise_append]
      refine ⟨h.ascending, List.pairwise_singleton _ _, ?_⟩
      intro old mem new last
      rw [List.mem_singleton.mp last, current]
      exact Nat.lt_of_le_of_lt (h.past old mem) later
    · rw [loads]
      intro old mem
      rcases List.mem_append.mp mem with mem | mem
      · exact Nat.le_of_lt (Nat.lt_of_le_of_lt (h.past old mem) later)
      · rw [List.mem_singleton.mp mem, current]
    · rw [awaited, loads, List.filter_append, none]
      simp [current, loading]
  | unloaded _ loads later unloaded =>
    have none := h.outdated later
    refine ⟨loads ▸ h.ascending, ?_, ?_⟩
    · rw [loads]
      exact fun ticket mem => Nat.le_of_lt (Nat.lt_of_le_of_lt (h.past ticket mem) later)
    · rw [awaited, loads, none]
      simp [unloaded]
  | @superseded _ ticket _ _ found loads old session =>
    apply h.ended found loads (by rw [session])
    have other : ticket.generation ≠ x.session.generation := by
      intro same
      have idle := old.resolve_left (not_not.mpr same.symm)
      exact idle (h.loading_of_current (List.mem_of_getElem? found) same)
    rw [session, if_neg other, Nat.add_zero]
  | failed _ found loads current loading session =>
    apply h.ended found loads (by rw [session])
    rw [session, if_pos loading, if_pos current.symm, if_neg (by simp)]
  | installed _ found loads current loading status generation =>
    apply h.ended found loads generation
    rw [status, if_pos loading, if_pos current.symm, if_neg (by simp)]
  | other _ keeps loads =>
    refine ⟨loads ▸ h.ascending, ?_, ?_⟩
    · rw [loads, keeps.generation]
      exact h.past
    · rw [awaited, loads, keeps.generation, keeps.status]
      exact h.count

theorem Reachable.ticketed (h : x.Reachable) : x.Ticketed :=
  h.invariant ticketed_start fun _ action reachable ticketed =>
    ticketed.loadStep (Activity.loadStep reachable.consistent action)

/-- A load that began after `before` was let in, and none has been since. -/
structure LastLoad (first : Activity) (before : List Action) (designation : TransactionRef)
    (since : List Action) (ticket : LoadTicket) : Prop where
  letIn : ((first.run before).session.beginLoad designation).result = some ticket
  ignored : ∀ earlier other later, since = earlier ++ .beginLoad other :: later →
    ((first.run (before ++ .beginLoad designation :: earlier)).session.beginLoad other).result =
      none

/-- One of the actions is the answer to a load, and it gives the trace. -/
def Delivers (begun : Activity) (since : List Action) (ticket : LoadTicket)
    (loaded : LoadedTrace) : Prop :=
  ∃ earlier place transaction answer later,
    since = earlier ++ .answerLoad place transaction answer :: later ∧
      (begun.run earlier).loads[place]? = some ticket ∧ indexAnswer transaction answer = .ok loaded

theorem LastLoad.extend {first : Activity} {before since : List Action}
    {designation : TransactionRef} {ticket : LoadTicket}
    (h : LastLoad first before designation since ticket)
    (quiet : ∀ other, action = .beginLoad other →
      ((first.run (before ++ .beginLoad designation :: since)).session.beginLoad other).result =
        none) :
    LastLoad first before designation (since ++ [action]) ticket where
  letIn := h.letIn
  ignored := by
    intro earlier other later eq
    rcases List.eq_nil_or_concat later with rfl | ⟨later, last, rfl⟩
    · obtain ⟨rfl, named⟩ := List.append_inj' eq rfl
      exact quiet other (List.singleton_inj.mp named)
    · rw [List.concat_eq_append, ← List.cons_append, ← List.append_assoc] at eq
      exact h.ignored earlier other later (List.append_inj' eq rfl).1

theorem Delivers.extend {begun : Activity} {since : List Action} {ticket : LoadTicket}
    {loaded : LoadedTrace} (h : begun.Delivers since ticket loaded) (action : Action) :
    begun.Delivers (since ++ [action]) ticket loaded := by
  obtain ⟨earlier, place, transaction, answer, later, rfl, found, ok⟩ := h
  exact ⟨earlier, place, transaction, answer, later ++ [action], by simp, found, ok⟩

/-- What is waited for is the last load that was let in, and what is loaded is what it
has delivered. -/
structure Follows (first : Activity) (actions : List Action) : Prop where
  waits : ∀ ticket ∈ (first.run actions).awaited, ∃ before designation since,
    actions = before ++ .beginLoad designation :: since ∧
      LastLoad first before designation since ticket
  installed : ∀ loaded, (first.run actions).session.loaded = some loaded →
    ∃ before designation since ticket, actions = before ++ .beginLoad designation :: since ∧
      LastLoad first before designation since ticket ∧
      ((first.run before).perform (.beginLoad designation)).Delivers since ticket loaded

variable {first : Activity} {actions : List Action}

/-- An action that lets in no load keeps the last one. -/
theorem Follows.extend_awaited (h : Follows first actions)
    (quiet : ∀ other, action = .beginLoad other →
      ((first.run actions).session.beginLoad other).result = none) :
    ∀ ticket ∈ (first.run actions).awaited, ∃ before designation since,
      actions ++ [action] = before ++ .beginLoad designation :: since ∧
        LastLoad first before designation since ticket := by
  intro ticket mem
  obtain ⟨before, designation, since, rfl, last⟩ := h.waits ticket mem
  exact ⟨before, designation, since ++ [action], by simp, last.extend quiet⟩

theorem Follows.extend (h : Follows first actions)
    (quiet : ∀ other, action = .beginLoad other →
      ((first.run actions).session.beginLoad other).result = none)
    (fewer : ∀ ticket ∈ ((first.run actions).perform action).awaited,
      ticket ∈ (first.run actions).awaited)
    (loaded : ((first.run actions).perform action).session.loaded =
      (first.run actions).session.loaded) : Follows first (actions ++ [action]) where
  waits := by
    rw [run_concat]
    exact fun ticket mem => h.extend_awaited quiet ticket (fewer ticket mem)
  installed := by
    rw [run_concat, loaded]
    intro trace present
    obtain ⟨before, designation, since, ticket, rfl, last, delivers⟩ := h.installed trace present
    exact ⟨before, designation, since ++ [action], ticket, by simp, last.extend quiet,
      delivers.extend action⟩

theorem mem_awaited_of_eraseIdx {y : Activity} {place : Nat}
    (loads : y.loads = x.loads.eraseIdx place)
    (generation : y.session.generation = x.session.generation) :
    ∀ ticket ∈ y.awaited, ticket ∈ x.awaited := by
  intro ticket
  rw [awaited, awaited, loads, generation]
  exact fun mem => ((List.eraseIdx_sublist ..).filter _).mem mem

theorem Follows.loadStep (h : Follows first actions) (ticketed : (first.run actions).Ticketed)
    (step : LoadStep (first.run actions) action ((first.run actions).perform action)) :
    Follows first (actions ++ [action]) := by
  have unnamed : ∀ {place answer}, action.Completes place answer →
      ∀ other, action = .beginLoad other →
        ((first.run actions).session.beginLoad other).result = none := by
    rintro place answer completes other rfl
    cases completes
  cases step with
  | @begun designation ticket named letIn loads current later _ empty =>
    refine ⟨?_, ?_⟩
    · rw [run_concat, awaited, loads, List.filter_append,
        ticketed.outdated later]
      intro other mem
      obtain rfl : other = ticket := by simpa [current] using mem
      exact ⟨actions, designation, [], by rw [named], letIn, by simp⟩
    · rw [run_concat, empty]
      exact fun loaded present => nomatch present
  | unloaded _ loads later _ empty =>
    refine ⟨?_, ?_⟩
    · rw [run_concat, awaited, loads, ticketed.outdated later]
      exact fun ticket mem => nomatch mem
    · rw [run_concat, empty]
      exact fun loaded present => nomatch present
  | superseded completes _ loads _ session =>
    exact h.extend (unnamed completes) (mem_awaited_of_eraseIdx loads (by rw [session]))
      (by rw [session])
  | failed completes _ loads _ _ session =>
    exact h.extend (unnamed completes) (mem_awaited_of_eraseIdx loads (by rw [session]))
      (by rw [session])
  | @installed place ticket loaded completes found loads current _ _ generation trace =>
    have waited : ticket ∈ (first.run actions).awaited :=
      List.mem_filter.mpr ⟨List.mem_of_getElem? found, decide_eq_true current.symm⟩
    refine ⟨?_, ?_⟩
    · rw [run_concat]
      exact fun ticket mem => h.extend_awaited (unnamed completes) ticket
        (mem_awaited_of_eraseIdx loads generation ticket mem)
    · rw [run_concat, trace]
      intro other same
      obtain rfl := Option.some.inj same
      obtain ⟨before, designation, since, rfl, last⟩ := h.waits ticket waited
      obtain ⟨transaction, answer, rfl, ok⟩ := completes.exists_answer rfl
      rw [run_append, run_cons] at found
      exact ⟨before, designation, _, ticket, by simp, last.extend (unnamed completes),
        since, place, transaction, answer, [], rfl, found, ok⟩
  | other ignored keeps loads =>
    refine h.extend ?_ ?_ keeps.loaded
    · intro designation named
      exact (Session.beginLoad_eq_none_iff designation).mpr (ignored designation named)
    · intro ticket
      rw [awaited, awaited, loads, keeps.generation]
      exact id

theorem follows_run (config : SessionConfig) (provider : Provider) (converter : Converter)
    (actions : List Action) : Follows (start config provider converter) actions := by
  induction actions using List.reverseRecOn with
  | nil => exact ⟨nofun, nofun⟩
  | append_singleton actions action ih =>
    have reachable := reachable_run config provider converter actions
    exact ih.loadStep reachable.ticketed (loadStep reachable.consistent action)

/-- Every answer that arrives is what the provider of its load gives. -/
def Answered (first : Activity) (actions : List Action) : Prop :=
  ∀ before place transaction answer after ticket,
    actions = before ++ .answerLoad place transaction answer :: after →
    (first.run before).loads[place]? = some ticket →
    ticket.provider.resolve ticket.designation = .ok transaction ∧
      ticket.provider.trace transaction = answer

/-- The trace is what the last load that was let in has fetched, from the provider that
was set when it began. -/
def FetchedLast (first : Activity) (actions : List Action) (loaded : LoadedTrace) : Prop :=
  ∃ before designation since ticket, actions = before ++ .beginLoad designation :: since ∧
    LastLoad first before designation since ticket ∧
    ticket.provider = (first.run before).session.provider ∧ ticket.designation = designation ∧
    ((first.run before).perform (.beginLoad designation)).Delivers since ticket loaded ∧
    (Answered first actions →
      (first.run before).session.provider.fetch designation = .ok loaded)

/-- What holds of the loads in flight and of the loaded trace after a run. -/
structure LoadsInOrder (first : Activity) (actions : List Action) : Prop where
  distinct : (first.run actions).loads.Pairwise (·.generation ≠ ·.generation)
  loading_iff : (first.run actions).session.status = .loading ↔
    (first.run actions).awaited.length = 1
  free_iff : (first.run actions).session.status ≠ .loading ↔ (first.run actions).awaited = []
  superseded : ∀ action place answer ticket, action.Completes place answer →
    (first.run actions).loads[place]? = some ticket →
    ticket.generation ≠ (first.run actions).session.generation →
    ((first.run actions).session.commitLoad ticket.generation answer).result = .ok .cancelled ∧
      (first.run actions).perform action =
        { first.run actions with loads := (first.run actions).loads.eraseIdx place }
  waited : ∀ ticket ∈ (first.run actions).awaited, ∀ answer,
    ((first.run actions).session.commitLoad ticket.generation answer).result ≠ .ok .cancelled
  ignored_iff : ∀ designation, ((first.run actions).session.beginLoad designation).result = none ↔
    (first.run actions).session.status = .loading
  ignored : (first.run actions).session.status = .loading →
    ∀ designation, (first.run actions).perform (.beginLoad designation) = first.run actions
  installed : ∀ loaded, (first.run actions).session.loaded = some loaded →
    FetchedLast first actions loaded

theorem Follows.fetchedLast (h : Follows first actions) {loaded : LoadedTrace}
    (present : (first.run actions).session.loaded = some loaded) :
    FetchedLast first actions loaded := by
  obtain ⟨before, designation, since, ticket, rfl, last, delivers⟩ := h.installed loaded present
  have free : (first.run before).session.status ≠ .loading := by
    intro loading
    have none := (Session.beginLoad_eq_none_iff designation).mpr loading
    cases none.symm.trans last.letIn
  obtain rfl := Option.some.inj
    ((Session.beginLoad_free free designation).2.2.symm.trans last.letIn)
  refine ⟨before, designation, since, _, rfl, last, rfl, rfl, delivers, ?_⟩
  intro answered
  obtain ⟨earlier, place, transaction, answer, later, rfl, found, ok⟩ := delivers
  obtain ⟨resolved, traced⟩ := answered (before ++ .beginLoad designation :: earlier) place
    transaction answer later _ (by simp) (by rw [run_append, run_cons]; exact found)
  subst traced
  rw [Provider.fetch, resolved]
  exact ok

/-- Under every interleaving, a session is loading just while one load in flight carries
its generation; all others are cancelled without a trace, and loads that begin meanwhile
are ignored. So what is loaded is what the last load that was let in has fetched. -/
theorem loads_in_order (config : SessionConfig) (provider : Provider) (converter : Converter)
    (actions : List Action) : LoadsInOrder (start config provider converter) actions := by
  have reachable := reachable_run config provider converter actions
  have ticketed := reachable.ticketed
  have count := ticketed.count
  exact {
    distinct := ticketed.ascending.imp Nat.ne_of_lt
    loading_iff := by
      rw [count]
      split <;> simp [*]
    free_iff := by
      rw [← List.length_eq_zero_iff, count]
      split <;> simp [*]
    superseded := by
      intro action place answer ticket completes found other
      have discarded := Session.commitLoad_superseded (.inl other.symm) answer
      rw [perform_completes completes, endLoad, found]
      simp [discarded, take]
    waited := by
      intro ticket mem answer
      have current : _ = ticket.generation := (of_decide_eq_true (List.mem_filter.mp mem).2).symm
      have loading : ((start config provider converter).run actions).session.status =
          .loading := by
        by_contra free
        rw [if_neg free, List.length_eq_zero_iff] at count
        rw [count] at mem
        cases mem
      rcases Session.commitLoad_awaited current loading answer with
        ⟨error, failed⟩ | ⟨loaded, -, -, -, -, installed⟩
      · simp [failed]
      · simp [installed]
    ignored_iff := Session.beginLoad_eq_none_iff
    ignored := by
      intro loading designation
      simp [perform, beginLoad, Session.beginLoad_loading loading, take]
    installed := fun loaded => (follows_run config provider converter actions).fetchedLast }

/-- A provider whose trace runs the last row only. -/
def lastRowProvider : Provider := { rowProvider with trace := fun _ => .ok (rowTrace [2]) }

/-- A load is given up, one from another provider begins, and a third one is ignored. -/
def switchedLoad : List Action :=
  [.beginLoad (.transaction rowTransaction), .setProvider lastRowProvider, .unload,
    .beginLoad (.transaction rowTransaction), .setProvider rowProvider,
    .beginLoad (.transaction rowTransaction)]

/-- The later of the two loads in flight is answered first. -/
def answeredLoad : List Action :=
  switchedLoad ++ [.answerLoad 1 rowTransaction (.ok (rowTrace [2]))]

theorem answered_answeredLoad : Answered rowStart answeredLoad := by
  intro before place transaction answer after ticket eq found
  rcases List.eq_nil_or_concat after with rfl | ⟨rest, last, rfl⟩
  · obtain ⟨rfl, named⟩ := List.append_inj' eq rfl
    cases List.singleton_inj.mp named
    have loads : (rowStart.run switchedLoad).loads =
        [⟨1, rowProvider, .transaction rowTransaction⟩,
          ⟨3, lastRowProvider, .transaction rowTransaction⟩] := rfl
    rw [loads] at found
    cases found
    exact ⟨rfl, rfl⟩
  · rw [List.concat_eq_append, ← List.cons_append, ← List.append_assoc] at eq
    have inner : .answerLoad place transaction answer ∈ switchedLoad := by
      rw [(List.append_inj' eq rfl).1]
      simp
    simp [switchedLoad] at inner

theorem answeredLoad_fetched : ∃ loaded,
    (rowStart.run switchedLoad).session.status = .loading ∧
      (rowStart.run switchedLoad).awaited.length = 1 ∧
      (rowStart.run switchedLoad).perform (.beginLoad (.transaction rowTransaction)) =
        rowStart.run switchedLoad ∧
      (rowStart.run answeredLoad).session.loaded = some loaded ∧
      Answered rowStart answeredLoad ∧ FetchedLast rowStart answeredLoad loaded ∧
      (rowStart.run answeredLoad).perform (.failLoad 0 (.timeout 0)) =
        { rowStart.run answeredLoad with loads := [] } := by
  have waiting : LoadsInOrder rowStart switchedLoad :=
    loads_in_order { parallelIndexing := false } rowProvider rowConverter switchedLoad
  have ended : LoadsInOrder rowStart answeredLoad :=
    loads_in_order { parallelIndexing := false } rowProvider rowConverter answeredLoad
  have loading : (rowStart.run switchedLoad).session.status = .loading := by decide +kernel
  have present : (rowStart.run answeredLoad).session.loaded.isSome := by decide +kernel
  obtain ⟨loaded, installed⟩ := Option.isSome_iff_exists.mp present
  have generation : (rowStart.run answeredLoad).session.generation = 3 := by decide +kernel
  have left : (rowStart.run answeredLoad).loads =
      [⟨1, rowProvider, .transaction rowTransaction⟩] := rfl
  have old := ended.superseded _ 0 _ ⟨1, rowProvider, .transaction rowTransaction⟩
    (.failed 0 (.timeout 0)) (by rw [left]; rfl) (by rw [generation]; simp)
  exact ⟨loaded, loading, waiting.loading_iff.mp loading, waiting.ignored loading _, installed,
    answered_answeredLoad, ended.installed loaded installed, by rw [old.2, left]; rfl⟩

end Activity

end TraceDebug
