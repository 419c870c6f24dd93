import Bearer.Proofs.Broker.Ledger
import Bearer.Proofs.Client.Retry

/-!
The books of a broker agree. Its counters, the outcomes that are counted for each kind of work and
the events that are emitted are kept at different places; they are three readings of one ledger, so
once no work is in progress each can be told from the others. A renewal that is aborted in the
middle of its fetch, when the last handle goes, has counted an attempt and never counts an outcome,
and neither do the fetch and the call that are broken off with it.
-/
namespace Bearer

namespace Event

@[simp] def isRenewalFailed : Event → Bool
  | .renewalFailed _ _ => true
  | _ => false

@[simp] def isRefreshDebounced : Event → Bool
  | .refreshDebounced _ => true
  | _ => false

@[simp] def isFellThrough : Event → Bool
  | .fellThrough _ => true
  | _ => false

end Event

/-- How many events of a kind were emitted. -/
def emitted (kind : Event → Bool) (observed : List Observation) : Nat :=
  observed.countP fun
    | .emitted event _ => kind event
    | _ => false

section Readings

variable (work : Work) (outcome : Outcome) (kind : Event → Bool)

@[simp] theorem total_nil : total work outcome [] = 0 := rfl

@[simp] theorem total_append (earlier later : List Observation) :
    total work outcome (earlier ++ later) =
      total work outcome earlier + total work outcome later :=
  List.countP_append

@[simp] theorem total_opened (span : Span) (within : Option Span) (rest : List Observation) :
    total work outcome (.opened span within :: rest) = total work outcome rest := by
  simp [total]

@[simp] theorem total_emitted (event : Event) (within : Option Span) (rest : List Observation) :
    total work outcome (.emitted event within :: rest) = total work outcome rest := by
  simp [total]

@[simp] theorem total_counted (of : Work) (done : Outcome) (rest : List Observation) :
    total work outcome (.counted of done :: rest) =
      (if of = work then if done = outcome then 1 else 0 else 0) + total work outcome rest := by
  simp [total, List.countP_cons, Nat.add_comm, ite_and]

@[simp] theorem emitted_nil : emitted kind [] = 0 := rfl

@[simp] theorem emitted_append (earlier later : List Observation) :
    emitted kind (earlier ++ later) = emitted kind earlier + emitted kind later :=
  List.countP_append

@[simp] theorem emitted_opened (span : Span) (within : Option Span) (rest : List Observation) :
    emitted kind (.opened span within :: rest) = emitted kind rest := by
  simp [emitted]

@[simp] theorem emitted_counted (of : Work) (done : Outcome) (rest : List Observation) :
    emitted kind (.counted of done :: rest) = emitted kind rest := by
  simp [emitted]

@[simp] theorem emitted_emitted (event : Event) (within : Option Span)
    (rest : List Observation) :
    emitted kind (.emitted event within :: rest) =
      (if kind event then 1 else 0) + emitted kind rest := by
  simp [emitted, List.countP_cons, Nat.add_comm]

end Readings

namespace Plan

/-- However a call goes, it counts one outcome at its end and emits nothing but its retries. -/
theorem uttered_counts [Url.Idna] (plan : Plan) (partners : Partners) (acts : List Act)
    (move : Move) :
    ∃ result : Except Error Http.Reply,
      (∀ work outcome, total work outcome (plan.uttered partners acts move) =
        if .call = work then if .of result = outcome then 1 else 0 else 0) ∧
      ∀ kind : Event → Bool, (∀ code, kind (.expiryRetry code) = false) →
        emitted kind (plan.uttered partners acts move) = 0 := by
  induction acts, move using Plan.uttered.induct plan partners with
  | case1 acts request attempt ih =>
      obtain ⟨result, totals, silent⟩ := ih
      refine ⟨result, fun work outcome => ?_, fun kind other => ?_⟩
      · simp [uttered, Move.observed, totals]
      · simp [uttered, Move.observed, silent kind other]
  | case2 acts failed code ih =>
      obtain ⟨result, totals, silent⟩ := ih
      refine ⟨result, fun work outcome => ?_, fun kind other => ?_⟩
      · simp [uttered, Move.observed, totals]
      · simp [uttered, Move.observed, silent kind other, other code]
  | case3 acts result =>
      refine ⟨result, fun work outcome => ?_, fun kind other => ?_⟩
      · simp [uttered, Move.observed]
      · simp [uttered, Move.observed]

theorem utters_counts [Url.Idna] (plan : Plan) (partners : Partners) :
    ∃ result : Except Error Http.Reply,
      (∀ work outcome, total work outcome (plan.utters partners) =
        if .call = work then if .of result = outcome then 1 else 0 else 0) ∧
      ∀ kind : Event → Bool, (∀ code, kind (.expiryRetry code) = false) →
        emitted kind (plan.utters partners) = 0 :=
  plan.uttered_counts partners _ _

end Plan

section Calls

variable [Url.Idna]

/-- What is observed of calls that have ended. -/
def talk (calls : List (Plan × Partners)) : List Observation :=
  calls.flatMap fun call => call.1.heard call.2

/-- Calls count nothing but calls, each with its outcome, and emit nothing that a broker emits. -/
theorem talk_counts (calls : List (Plan × Partners)) :
    (∀ work, total work .attempt (talk calls) =
      total work .success (talk calls) + total work .failure (talk calls)) ∧
    (∀ work outcome, work ≠ .call → total work outcome (talk calls) = 0) ∧
    ∀ kind : Event → Bool, (∀ code, kind (.expiryRetry code) = false) →
      emitted kind (talk calls) = 0 := by
  induction calls with
  | nil => exact ⟨fun work => rfl, fun work outcome other => rfl, fun kind other => rfl⟩
  | cons call rest ih =>
      obtain ⟨attempts, others, silent⟩ := ih
      obtain ⟨result, totals, still⟩ := call.1.utters_counts call.2
      simp only [talk, List.flatMap_cons] at attempts others silent ⊢
      refine ⟨fun work => ?_, fun work outcome other => ?_, fun kind other => ?_⟩
      · have one : total work .attempt (call.1.heard call.2) =
            total work .success (call.1.heard call.2) +
              total work .failure (call.1.heard call.2) := by
          cases result <;> simp [Plan.heard, Plan.began, totals, Outcome.of, eq_comm]
        have all := attempts work
        simp only [total_append]
        omega
      · rw [total_append, others work outcome other]
        simp [Plan.heard, Plan.began, totals, Ne.symm other]
      · rw [emitted_append, silent kind other]
        simp [Plan.heard, Plan.began, still kind other]

end Calls

/-- What is observed of retries in calls that are broken off: the codes that were told. -/
def murmur (codes : List Int) : List Observation :=
  codes.map fun code => .emitted (.expiryRetry code) (some .call)

theorem total_murmur (work : Work) (outcome : Outcome) (codes : List Int) :
    total work outcome (murmur codes) = 0 := by
  induction codes with
  | nil => rfl
  | cons code rest ih => exact (total_emitted work outcome _ _ _).trans ih

theorem emitted_murmur {kind : Event → Bool} (other : ∀ code, kind (.expiryRetry code) = false)
    (codes : List Int) : emitted kind (murmur codes) = 0 := by
  induction codes with
  | nil => rfl
  | cons code rest ih =>
      rw [murmur, List.map_cons, emitted_emitted, other, ← murmur, ih]
      rfl

namespace Broker

/-- What is observed before there is a broker. -/
def opening [Url.Idna] (source : Voice) (config : Config) (outcome : Except Error Credential) :
    List Observation :=
  .opened .eager none :: (source.began ++ (source.ended 1 outcome ++ reported config outcome))

/-- No caller is served and nothing is fetched. -/
structure Quiet (b : Broker) : Prop where
  callers : b.callers = []
  renewal : b.phase .renewal ≠ .fetching

/-- How the counters agree with each other and with what a run was asked for. -/
structure CountersAgree (c : Counters) (causes : List Cause) : Prop where
  fetches : c.fetches = 1 + c.renewals + (c.forcedRefreshes - c.debouncedRefreshes)
  debounced : c.debouncedRefreshes ≤ c.forcedRefreshes
  forced : c.forcedRefreshes = causes.count .force + c.resolverFallThroughs
  resolved : c.resolverPollHits + c.resolverFallThroughs = causes.count .resolve
  failures : c.renewalFailures = causes.count .renewalFailed

/-- How what is observed agrees with the counters. `started` is the outcome of the first fetch, and
`source` says what the source counts of a fetch. -/
structure SightingsAgree [Url.Idna] (source : Voice) (started : Except Error Credential)
    (c : Counters) (causes : List Cause) (observed : List Observation) : Prop where
  attempts : ∀ work, total work .attempt observed =
    total work .success observed + total work .failure observed +
      if work = .renewal ∨ source.counts work then causes.count .renewalAborted else 0
  renewals : total .renewal .attempt observed = c.renewals
  renewalFailures : total .renewal .failure observed = c.renewalFailures
  resolves : total .resolve .attempt observed = c.resolverPollHits + c.resolverFallThroughs
  refreshes : total .refresh .attempt observed = c.forcedRefreshes - c.resolverFallThroughs
  debouncedEvents : emitted Event.isRefreshDebounced observed = c.debouncedRefreshes
  fellThroughEvents : emitted Event.isFellThrough observed = c.resolverFallThroughs
  failedEvents : emitted Event.isRenewalFailed observed =
    c.renewalFailures + if Outcome.of started = .failure then 1 else 0

namespace Deed

@[simp] def due (cause : Cause) (deed : Deed) : Nat :=
  if deed.cause? = some cause then 1 else 0

@[simp] def absorptions : Deed → Nat
  | .absorbed _ _ => 1
  | _ => 0

@[simp] def hits : Deed → Nat
  | .hit => 1
  | _ => 0

@[simp] def falls : Deed → Nat
  | .fellThrough _ => 1
  | _ => 0

/-- What flows through the accounts of one kind of work. A fetch is counted by its source only. -/
@[simp] def flow [Url.Idna] (through : Account → Deed → Nat) (source : Voice) (work : Work)
    (deed : Deed) : Nat :=
  through (.calls work) deed + (if .renewal = work then through .renewals deed else 0) +
    if source.counts work then through .fetches deed + through .renewals deed else 0

end Deed

/-- What one deed adds to each book. -/
structure Adds [Url.Idna] (config : Config) (source : Voice) (deed : Deed) : Prop where
  fetches : ∀ c, (deed.count c).fetches =
    c.fetches + (Account.fetches.opens deed + Account.renewals.opens deed)
  renewals : ∀ c, (deed.count c).renewals = c.renewals + Account.renewals.opens deed
  failures : ∀ c, (deed.count c).renewalFailures = c.renewalFailures + deed.due .renewalFailed
  forced : ∀ c, (deed.count c).forcedRefreshes = c.forcedRefreshes + Account.refreshes.opens deed
  debounced : ∀ c, (deed.count c).debouncedRefreshes = c.debouncedRefreshes + deed.absorptions
  hits : ∀ c, (deed.count c).resolverPollHits = c.resolverPollHits + deed.hits
  falls : ∀ c, (deed.count c).resolverFallThroughs = c.resolverFallThroughs + deed.falls
  refreshesOpened : deed.due .force + deed.falls = Account.refreshes.opens deed
  refreshesClosed : deed.absorptions + Account.fetches.opens deed = Account.refreshes.closes deed
  pollsOpened : deed.due .resolve = Account.polls.opens deed
  pollsClosed : deed.hits + deed.falls = Account.polls.closes deed
  attempts : ∀ work, total work .attempt (deed.said config source) =
    deed.flow Account.opens source work
  outcomes : ∀ work, total work .success (deed.said config source) +
    total work .failure (deed.said config source) = deed.flow Account.closes source work
  failed : total .renewal .failure (deed.said config source) = deed.due .renewalFailed
  debouncedEvents : emitted Event.isRefreshDebounced (deed.said config source) = deed.absorptions
  fellThroughEvents : emitted Event.isFellThrough (deed.said config source) = deed.falls
  failedEvents : emitted Event.isRenewalFailed (deed.said config source) = deed.due .renewalFailed

section Tallies

@[simp] theorem total_reported (config : Config) (result : Except Error Credential) (work : Work)
    (outcome : Outcome) : total work outcome (reported config result) = 0 := by
  cases result <;> simp [reported]

theorem work_ne_renewal (origin : Origin) : origin.work ≠ .renewal := by
  cases origin with
  | forced => decide
  | resolving failed => exact nofun

theorem opens_refresh (deed : Deed) : (Account.calls .refresh).opens deed = deed.due .force := by
  cases deed with
  | asked origin => cases origin <;> rfl
  | renewed number outcome => cases outcome <;> rfl
  | _ => rfl

theorem opens_resolve (deed : Deed) : (Account.calls .resolve).opens deed = deed.due .resolve := by
  cases deed with
  | asked origin => cases origin <;> rfl
  | renewed number outcome => cases outcome <;> rfl
  | _ => rfl

theorem opens_renewal (deed : Deed) : (Account.calls .renewal).opens deed = 0 := by
  cases deed with
  | asked origin => exact if_neg (work_ne_renewal origin)
  | _ => rfl

theorem counted_eq {read : Counters → Nat} {share : Deed → Nat}
    (one : ∀ deed counters, read (deed.count counters) = read counters + share deed)
    (deeds : List Deed) (counters : Counters) :
    read (counted deeds counters) = read counters + tally share deeds := by
  induction deeds generalizing counters with
  | nil => rfl
  | cons deed rest ih =>
      have here := one deed counters
      have there := ih (deed.count counters)
      rw [tally_cons]
      simp only [counted, List.foldl_cons] at there ⊢
      omega

theorem count_eq (cause : Cause) (deeds : List Deed) :
    (deeds.filterMap Deed.cause?).count cause =
      tally (Deed.due cause) deeds := by
  induction deeds with
  | nil => rfl
  | cons deed rest ih =>
      rw [tally_cons, ← ih, Deed.due]
      cases found : deed.cause? with
      | none => simp [List.filterMap_cons_none found]
      | some other => simp [List.filterMap_cons_some found, List.count_cons, Nat.add_comm]

theorem tally_add {f g h : Deed → Nat} {deeds : List Deed}
    (one : ∀ deed ∈ deeds, f deed + g deed = h deed) :
    tally f deeds + tally g deeds = tally h deeds := by
  induction deeds with
  | nil => rfl
  | cons deed rest ih =>
      have here := one deed (List.mem_cons_self ..)
      have there := ih fun other member => one other (List.mem_cons_of_mem _ member)
      simp only [tally_cons]
      omega

theorem tally_zero (deeds : List Deed) : tally (fun _ => 0) deeds = 0 := by
  simp [tally]

theorem tally_congr {f g : Deed → Nat} {deeds : List Deed}
    (same : ∀ deed ∈ deeds, f deed = g deed) : tally f deeds = tally g deeds :=
  congrArg List.sum (List.map_congr_left same)

/-- Where no caller leaves, nothing is given up but renewals that are aborted. -/
theorem tally_forfeits {deeds : List Deed} (stays : .leave ∉ deeds.filterMap Deed.cause?)
    (account : Account) :
    tally account.forfeits deeds =
      match account with
      | .renewals => tally (Deed.due .renewalAborted) deeds
      | _ => 0 := by
  have one : ∀ deed ∈ deeds, account.forfeits deed =
      match account with
      | .renewals => deed.due .renewalAborted
      | _ => 0 := by
    intro deed member
    cases deed with
    | left caller =>
        have gone : .leave ∈ deeds.filterMap Deed.cause? :=
          List.mem_filterMap.mpr ⟨_, member, rfl⟩
        exact absurd gone stays
    | asked origin => cases account <;> cases origin <;> rfl
    | renewed number outcome => cases account <;> cases outcome <;> rfl
    | _ => cases account <;> rfl
  rw [tally_congr one]
  cases account with
  | renewals => rfl
  | calls _ | polls | refreshes | fetches => exact tally_zero deeds

end Tallies

section Readings

variable [Url.Idna] {config : Config} {source : Voice}

theorem counts_apart (source : Voice) {work : Work} (apart : work ≠ .call ∧ work ≠ .fetch) :
    source.counts work = false := by
  cases source <;> simp [Voice.counts, apart]

theorem total_began (source : Voice) (work : Work) (outcome : Outcome) :
    total work outcome source.began =
      if source.counts work then if .attempt = outcome then 1 else 0 else 0 := by
  cases source with
  | silent => rfl
  | token => simp [Voice.began, Voice.counts, Source.began, eq_comm]
  | ticket calls => cases work <;> simp [Voice.began, Voice.counts, Source.began, Plan.began]

/-- A fetch ends with one outcome for each kind of work that it has begun. -/
theorem total_ended (source : Voice) (number : Nat) (result : Except Error Credential)
    (work : Work) :
    total work .attempt (source.ended number result) = 0 ∧
      total work .success (source.ended number result) +
        total work .failure (source.ended number result) =
          if source.counts work then 1 else 0 := by
  cases source with
  | silent => exact ⟨rfl, rfl⟩
  | token =>
      cases result <;> simp [Voice.ended, Voice.counts, Source.ended, Outcome.of, eq_comm]
  | ticket calls =>
      obtain ⟨told, totals, -⟩ := (calls number).1.utters_counts (calls number).2
      cases told <;> cases result <;> cases work <;>
        simp [Voice.ended, Voice.counts, Source.ended, Outcome.of, totals]

theorem total_ended_apart (source : Voice) (number : Nat) (result : Except Error Credential)
    {work : Work} (apart : work ≠ .call ∧ work ≠ .fetch) (outcome : Outcome) :
    total work outcome (source.ended number result) = 0 := by
  obtain ⟨attempts, outcomes⟩ := total_ended source number result work
  rw [counts_apart source apart, if_neg Bool.false_ne_true] at outcomes
  cases outcome with
  | attempt => exact attempts
  | success | failure => omega

theorem emitted_began (kind : Event → Bool) : emitted kind source.began = 0 := by
  cases source <;> simp [Voice.began, Source.began, Plan.began]

theorem emitted_ended {kind : Event → Bool} (other : ∀ code, kind (.expiryRetry code) = false)
    (number : Nat) (result : Except Error Credential) :
    emitted kind (source.ended number result) = 0 := by
  cases source with
  | silent => rfl
  | token => simp [Voice.ended, Source.ended]
  | ticket calls =>
      obtain ⟨-, -, silent⟩ := (calls number).1.utters_counts (calls number).2
      simp [Voice.ended, Source.ended, silent kind other]

/-- A fetch emits nothing that a broker emits. -/
theorem quiet_ended (source : Voice) (number : Nat) (result : Except Error Credential) :
    emitted Event.isRefreshDebounced (source.ended number result) = 0 ∧
      emitted Event.isFellThrough (source.ended number result) = 0 ∧
      emitted Event.isRenewalFailed (source.ended number result) = 0 :=
  ⟨emitted_ended (fun _ => rfl) number result, emitted_ended (fun _ => rfl) number result,
    emitted_ended (fun _ => rfl) number result⟩

theorem adds (config : Config) (source : Voice) (deed : Deed) : Adds config source deed := by
  cases deed with
  | asked origin =>
      cases origin <;> constructor <;> simp [Counters.forcedRefresh]
  | hit =>
      constructor <;> simp [Counters.pollHit]
  | fellThrough polls =>
      constructor <;> simp [Counters.fallThrough, Counters.forcedRefresh]
  | absorbed origin since =>
      constructor <;> simp [Counters.debouncedRefresh]
  | fetching origin =>
      constructor <;> simp [Counters.fetch, total_began, emitted_began]
  | landed number outcome =>
      have ends := total_ended source number outcome
      have apart : ∀ told, total .renewal told (source.ended number outcome) = 0 :=
        total_ended_apart source number outcome (by decide)
      have quiet := quiet_ended source number outcome
      constructor <;> simp [ends, apart, quiet]
  | answered origin answer =>
      cases answer <;> constructor <;> simp [Outcome.of, work_ne_renewal]
  | left caller =>
      constructor <;> simp
  | renewing =>
      constructor <;> simp [Counters.fetch, Counters.renewal, total_began, emitted_began]
  | renewed number outcome =>
      have ends := total_ended source number outcome
      have apart : ∀ told, total .renewal told (source.ended number outcome) = 0 :=
        total_ended_apart source number outcome (by decide)
      have quiet := quiet_ended source number outcome
      constructor
      case outcomes =>
        intro work
        have outcomes := (ends work).2
        cases outcome <;> simp [Outcome.of] <;> omega
      all_goals
        cases outcome <;>
          simp [Counters.renewalFailure, ends, apart, quiet, Outcome.of, reported]
  | aborted =>
      constructor <;> simp

theorem total_eq {work : Work} {outcome : Outcome} {share : Deed → Nat}
    (one : ∀ deed : Deed, total work outcome (deed.said config source) = share deed)
    (deeds : List Deed) :
    total work outcome (deeds.flatMap (Deed.said config source)) = tally share deeds := by
  induction deeds with
  | nil => rfl
  | cons deed rest ih => rw [List.flatMap_cons, total_append, tally_cons, one, ih]

theorem emitted_eq {kind : Event → Bool} {share : Deed → Nat}
    (one : ∀ deed : Deed, emitted kind (deed.said config source) = share deed)
    (deeds : List Deed) :
    emitted kind (deeds.flatMap (Deed.said config source)) = tally share deeds := by
  induction deeds with
  | nil => rfl
  | cons deed rest ih => rw [List.flatMap_cons, emitted_append, tally_cons, one, ih]

theorem tally_flow (through : Account → Deed → Nat) (source : Voice) (work : Work)
    (deeds : List Deed) :
    tally (Deed.flow through source work) deeds =
      tally (through (.calls work)) deeds +
        (if .renewal = work then tally (through .renewals) deeds else 0) +
        if source.counts work then
          tally (through .fetches) deeds + tally (through .renewals) deeds
        else 0 := by
  induction deeds with
  | nil => simp
  | cons deed rest ih =>
      simp only [tally_cons, ih, Deed.flow]
      split <;> split <;> omega

/-- What a fetch counts does not flow through the accounts of other work. -/
theorem tally_flow_apart (through : Account → Deed → Nat) (source : Voice) (work : Work)
    (apart : work ≠ .call ∧ work ≠ .fetch) (deeds : List Deed) :
    tally (Deed.flow through source work) deeds =
      tally (through (.calls work)) deeds +
        if .renewal = work then tally (through .renewals) deeds else 0 := by
  rw [tally_flow, counts_apart source apart]
  rfl

end Readings

section Causes

variable {b : Broker} {now : Nat} {input : Input}

theorem cancel_of_leave (cause : b.cause? input = some .leave) : ∃ id, input = .cancel id := by
  cases input with
  | cancel id => exact ⟨id, rfl⟩
  | land party outcome => cases party <;> cases outcome <;> simp [cause?] at cause
  | _ => simp [cause?] at cause

theorem drop_of_aborted (cause : b.cause? input = some .renewalAborted) :
    input = .drop ∧ b.handles = 1 ∧ b.phase .renewal = .fetching := by
  cases input with
  | drop =>
      refine ⟨rfl, Decidable.byContradiction fun other => ?_⟩
      simp [cause?, other] at cause
  | land party outcome => cases party <;> cases outcome <;> simp [cause?] at cause
  | _ => simp [cause?] at cause

theorem leave_mem_causes {inputs : List (Nat × Input)} (gone : .leave ∈ b.causes inputs) :
    ∃ timed ∈ inputs, ∃ id, timed.2 = .cancel id := by
  induction inputs generalizing b with
  | nil => cases gone
  | cons timed rest ih =>
      obtain here | later := List.mem_append.mp gone
      · exact ⟨timed, List.mem_cons_self .., cancel_of_leave (Option.mem_toList.mp here)⟩
      · obtain ⟨other, member, found⟩ := ih later
        exact ⟨other, List.mem_cons_of_mem _ member, found⟩

theorem stopped_step (orderly : b.Orderly) (stopped : b.renewal = .stopped) (now : Nat)
    (input : Input) : (b.step now input).broker.renewal = .stopped := by
  cases step_shift orderly now input with
  | aside renewal | left _ _ _ renewal | landed _ _ _ _ _ renewal => exact renewal.trans stopped
  | stops _ _ renewal => exact renewal
  | rearms _ _ _ found | renewed _ _ _ _ found => cases found.symm.trans stopped
  | waits _ tries | skips _ tries | fetches _ tries =>
      cases tries.saw.symm.trans (congrArg Renewal.seen? stopped)

/-- The renewal does not come back, so it is aborted once. -/
theorem aborts_le_one (orderly : b.Orderly) (inputs : List (Nat × Input)) :
    (b.causes inputs).count .renewalAborted ≤ if b.renewal = .stopped then 0 else 1 := by
  induction inputs generalizing b with
  | nil => exact Nat.zero_le _
  | cons timed rest ih =>
      obtain ⟨now, input⟩ := timed
      have later := ih (orderly.step now input)
      rw [causes, List.count_append]
      by_cases aborted : b.cause? input = some .renewalAborted
      · obtain ⟨rfl, last, fetching⟩ := drop_of_aborted aborted
        obtain ⟨seen, found⟩ := phase_fetching_renewal.mp fetching
        have stopped : (b.step now .drop).broker.renewal = .stopped := by
          simp only [step, dropHandle, last, if_true]
          exact renewal_leave _ .renewal
        simp only [stopped, if_true, found, reduceCtorEq, if_false, aborted] at later ⊢
        simpa using later
      · have here : (b.cause? input).toList.count .renewalAborted = 0 :=
          List.count_eq_zero.mpr fun member => aborted (Option.mem_toList.mp member)
        by_cases stopped : b.renewal = .stopped
        · rw [if_pos (stopped_step orderly stopped now input)] at later
          omega
        · rw [if_neg stopped]
          split at later <;> omega

end Causes

section Balance

variable [Url.Idna] {deeds : List Deed}

/-- What has begun in one kind of work has ended, but for renewals that were aborted. -/
theorem flow_balance
    (balance : ∀ account : Account, tally account.opens deeds =
      tally account.closes deeds + tally account.forfeits deeds)
    (stays : .leave ∉ deeds.filterMap Deed.cause?) (source : Voice) (work : Work) :
    tally (Deed.flow Account.opens source work) deeds =
      tally (Deed.flow Account.closes source work) deeds +
        if work = .renewal ∨ source.counts work then
          tally (Deed.due .renewalAborted) deeds
        else 0 := by
  have calls := balance (.calls work)
  have fetches := balance .fetches
  have renewals := balance .renewals
  simp only [tally_forfeits stays] at calls fetches renewals
  rw [tally_flow, tally_flow]
  by_cases scheduled : work = .renewal
  · subst scheduled
    have uncounted : source.counts .renewal = false := counts_apart source (by decide)
    simp only [uncounted, Bool.false_eq_true, or_false, if_true, if_false]
    omega
  · have unscheduled : ¬Work.renewal = work := Ne.symm scheduled
    simp only [scheduled, unscheduled, false_or, if_false]
    split <;> omega

theorem opening_attempts (source : Voice) (config : Config)
    (started : Except Error Credential) (work : Work) :
    total work .attempt (opening source config started) =
      total work .success (opening source config started) +
        total work .failure (opening source config started) := by
  obtain ⟨attempts, outcomes⟩ := total_ended source 1 started work
  simp only [opening, total_opened, total_append, total_began, total_reported, attempts]
  split at outcomes <;> simp_all

theorem total_opening_apart (source : Voice) (config : Config)
    (started : Except Error Credential) {work : Work} (apart : work ≠ .call ∧ work ≠ .fetch)
    (outcome : Outcome) : total work outcome (opening source config started) = 0 := by
  have uncounted := counts_apart source apart
  simp [opening, total_began, total_ended_apart source 1 started apart, uncounted]

theorem emitted_opening (source : Voice) (config : Config)
    (started : Except Error Credential) {kind : Event → Bool}
    (other : ∀ code, kind (.expiryRetry code) = false) :
    emitted kind (opening source config started) = emitted kind (reported config started) := by
  simp [opening, emitted_began, emitted_ended other]

theorem counters_agree
    (balance : ∀ account : Account, tally account.opens deeds =
      tally account.closes deeds + tally account.forfeits deeds)
    (stays : .leave ∉ deeds.filterMap Deed.cause?) :
    CountersAgree (counted deeds Counters.zero.fetch) (deeds.filterMap Deed.cause?) := by
  have add := adds .default .silent
  have fetches := counted_eq (fun deed => (add deed).fetches) deeds Counters.zero.fetch
  have renewals := counted_eq (fun deed => (add deed).renewals) deeds Counters.zero.fetch
  have failures := counted_eq (fun deed => (add deed).failures) deeds Counters.zero.fetch
  have forced := counted_eq (fun deed => (add deed).forced) deeds Counters.zero.fetch
  have debounced := counted_eq (fun deed => (add deed).debounced) deeds Counters.zero.fetch
  have hits := counted_eq (fun deed => (add deed).hits) deeds Counters.zero.fetch
  have falls := counted_eq (fun deed => (add deed).falls) deeds Counters.zero.fetch
  generalize counted deeds Counters.zero.fetch = c at *
  simp only [Counters.zero, Counters.fetch, Nat.zero_add] at *
  have begun : tally Account.fetches.opens deeds + tally Account.renewals.opens deeds =
      tally _ deeds := tally_add fun deed _ => rfl
  have refreshesOpened := tally_add fun deed (_ : deed ∈ deeds) => (add deed).refreshesOpened
  have refreshesClosed := tally_add fun deed (_ : deed ∈ deeds) => (add deed).refreshesClosed
  have pollsOpened := tally_congr fun deed (_ : deed ∈ deeds) => (add deed).pollsOpened
  have pollsClosed := tally_add fun deed (_ : deed ∈ deeds) => (add deed).pollsClosed
  have polls := balance .polls
  have refreshes := balance .refreshes
  simp only [tally_forfeits stays, Nat.add_zero] at polls refreshes
  constructor
  case fetches | debounced => omega
  all_goals
    rw [count_eq]
    omega

section Observed

variable {config : Config} {started : Except Error Credential} {source : Voice}
  {share : Deed → Nat}

/-- Work that neither a call nor the first fetch does is counted for deeds only. -/
theorem total_observed {work : Work} {outcome : Outcome} (calls : List (Plan × Partners))
    (codes : List Int) (one : ∀ deed, total work outcome (Deed.said config source deed) = share deed)
    (apart : work ≠ .call ∧ work ≠ .fetch) :
    total work outcome (opening source config started ++ deeds.flatMap (Deed.said config source) ++
      talk calls ++ murmur codes) = tally share deeds := by
  obtain ⟨-, uncalled, -⟩ := talk_counts calls
  rw [total_append, total_append, total_append, total_murmur,
    total_opening_apart source config started apart, total_eq one, uncalled work outcome apart.1,
    Nat.zero_add, Nat.add_zero]

theorem emitted_observed {kind : Event → Bool} (calls : List (Plan × Partners))
    (codes : List Int) (one : ∀ deed, emitted kind (Deed.said config source deed) = share deed)
    (other : ∀ code, kind (.expiryRetry code) = false) :
    emitted kind (opening source config started ++ deeds.flatMap (Deed.said config source) ++
      talk calls ++ murmur codes) = emitted kind (reported config started) + tally share deeds := by
  obtain ⟨-, -, silent⟩ := talk_counts calls
  rw [emitted_append, emitted_append, emitted_append, emitted_murmur other,
    emitted_opening source config started other, emitted_eq one, silent kind other, Nat.add_zero]

end Observed

theorem sightings_agree {config : Config} {started : Except Error Credential}
    {source : Voice} (calls : List (Plan × Partners)) (codes : List Int)
    (balance : ∀ account : Account, tally account.opens deeds =
      tally account.closes deeds + tally account.forfeits deeds)
    (stays : .leave ∉ deeds.filterMap Deed.cause?) :
    SightingsAgree source started (counted deeds Counters.zero.fetch)
      (deeds.filterMap Deed.cause?)
      (opening source config started ++ deeds.flatMap (Deed.said config source) ++
        talk calls ++ murmur codes) := by
  have add := adds config source
  have agree := counters_agree balance stays
  have begun := fun work deed => (add deed).attempts work
  constructor
  case attempts =>
    intro work
    obtain ⟨callAttempts, -, -⟩ := talk_counts calls
    have flow := flow_balance balance stays source work
    have called := callAttempts work
    have ended : total work .success (deeds.flatMap (Deed.said config source)) +
        total work .failure (deeds.flatMap (Deed.said config source)) =
          tally (Deed.flow Account.closes source work) deeds := by
      rw [total_eq (fun deed => rfl) deeds, total_eq (fun deed => rfl) deeds]
      exact tally_add fun deed _ => (add deed).outcomes work
    have opened := opening_attempts source config started work
    simp only [total_append, total_murmur, total_eq (begun work), count_eq]
    omega
  case renewals =>
    have renewals := counted_eq (fun deed => (add deed).renewals) deeds Counters.zero.fetch
    have none_called := tally_congr fun deed (_ : deed ∈ deeds) => opens_renewal deed
    rw [total_observed calls codes (begun .renewal) (by decide), renewals,
      tally_flow_apart _ source .renewal (by decide), none_called, tally_zero]
    simp [Counters.zero, Counters.fetch]
  case renewalFailures =>
    rw [total_observed calls codes (fun deed => (add deed).failed) (by decide), agree.failures,
      count_eq]
  case resolves =>
    have asked := tally_congr fun deed (_ : deed ∈ deeds) => opens_resolve deed
    rw [total_observed calls codes (begun .resolve) (by decide), agree.resolved, count_eq,
      tally_flow_apart _ source .resolve (by decide), asked]
    rfl
  case refreshes =>
    have asked := tally_congr fun deed (_ : deed ∈ deeds) => opens_refresh deed
    rw [total_observed calls codes (begun .refresh) (by decide), agree.forced,
      Nat.add_sub_cancel, count_eq, tally_flow_apart _ source .refresh (by decide), asked]
    rfl
  case debouncedEvents =>
    have debounced := counted_eq (fun deed => (add deed).debounced) deeds Counters.zero.fetch
    rw [emitted_observed calls codes (fun deed => (add deed).debouncedEvents) fun code => rfl,
      debounced]
    cases started <;> simp [reported, Counters.zero, Counters.fetch]
  case fellThroughEvents =>
    have falls := counted_eq (fun deed => (add deed).falls) deeds Counters.zero.fetch
    rw [emitted_observed calls codes (fun deed => (add deed).fellThroughEvents) fun code => rfl,
      falls]
    cases started <;> simp [reported, Counters.zero, Counters.fetch]
  case failedEvents =>
    rw [emitted_observed calls codes (fun deed => (add deed).failedEvents) fun code => rfl,
      agree.failures, count_eq]
    cases started <;> simp [reported, Outcome.of, Nat.add_comm]

end Balance

end Broker

end Bearer
