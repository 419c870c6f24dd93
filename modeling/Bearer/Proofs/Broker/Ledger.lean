import Bearer.Proofs.Broker.Callers
import Bearer.Proofs.Broker.Schedule
import Bearer.Proofs.Client.Retry
import Bearer.Source.IssuerToken

/-!
The ledger of a broker. Whatever a party does is one of a few deeds, and a deed says what is
counted, what is observed, and which work begins and ends with it. Every input, a caller that leaves
included, is entered as deeds such that counters, observations and the work in progress all follow
from them. Fetches are known by their number, the first being the one that founds the broker.
-/
namespace Bearer.Broker

inductive Deed where
  | asked (origin : Origin)
  | hit
  | fellThrough (polls : Nat)
  | absorbed (origin : Origin) (since : Nat)
  | fetching (origin : Origin)
  | landed (number : Nat) (outcome : Except Error Credential)
  | answered (origin : Origin) (answer : Except Error Credential)
  | left (caller : Caller)
  | renewing
  | renewed (number : Nat) (outcome : Except Error Credential)
  | aborted

/-- Something that a run is asked for, or that goes wrong in it. -/
inductive Cause where
  | force
  | resolve
  | leave
  | renewalFailed
  | renewalAborted
  deriving DecidableEq

section Voices

variable [Url.Idna]

/-- What a source lets observe of its fetches. One that asks the issuer for access tokens counts
each fetch, in a span of its own. One of tickets does so too, and makes a call in each: `calls n` is
the call of the fetch with number `n`, and the token service that it asks keeps its own books. Any
other may count nothing. -/
inductive Voice where
  | silent
  | token
  | ticket (calls : Nat → Plan × Partners)

namespace Voice

/-- What is observed when a fetch begins. -/
def began : Voice → List Observation
  | .silent => []
  | .token => Source.began .issuerToken
  | .ticket _ => Source.began .ticket ++ Plan.began

/-- What is observed of a fetch from then on to its end. -/
def ended (source : Voice) (number : Nat) (outcome : Except Error Credential) :
    List Observation :=
  match source with
  | .silent => []
  | .token => Source.ended outcome
  | .ticket calls => (calls number).1.utters (calls number).2 ++ Source.ended outcome

/-- Whether a fetch counts work of this kind. -/
def counts : Voice → Work → Bool
  | .silent, _ => false
  | .token, work => work = .fetch
  | .ticket _, work => work = .fetch || work = .call

end Voice

end Voices

namespace Deed

@[simp] def count : Deed → Counters → Counters
  | .asked .forced => .forcedRefresh
  | .hit => .pollHit
  | .fellThrough _ => fun counters => counters.fallThrough.forcedRefresh
  | .absorbed _ _ => .debouncedRefresh
  | .fetching _ => .fetch
  | .renewing => fun counters => counters.renewal.fetch
  | .renewed _ (.error _) => .renewalFailure
  | .asked (.resolving _) | .landed _ _ | .answered _ _ | .left _ | .renewed _ (.ok _)
  | .aborted => id

@[simp] def said [Url.Idna] (config : Config) (source : Voice) : Deed → List Observation
  | .asked origin => [.opened origin.span none, .counted origin.work .attempt]
  | .fellThrough polls => [.emitted (.fellThrough polls) (some .resolveNew)]
  | .absorbed origin since =>
    [.emitted (.refreshDebounced (since / 1000000)) (some origin.span)]
  | .fetching origin => .opened .refreshFetch (some origin.span) :: source.began
  | .landed number outcome => source.ended number outcome
  | .answered origin answer => [.counted origin.work (.of answer)]
  | .renewing =>
    .opened .scheduled none :: .counted .renewal .attempt ::
      .opened .renewalFetch (some .scheduled) :: source.began
  | .renewed number outcome =>
    source.ended number outcome ++ (reported config outcome ++ [.counted .renewal (.of outcome)])
  | .hit | .left _ | .aborted => []

@[simp] def cause? : Deed → Option Cause
  | .asked .forced => some .force
  | .asked (.resolving _) => some .resolve
  | .left _ => some .leave
  | .renewed _ (.error _) => some .renewalFailed
  | .aborted => some .renewalAborted
  | _ => none

end Deed

/-- The work that can be in progress. -/
inductive Account where
  | calls (work : Work)
  | polls
  | refreshes
  | fetches
  | renewals

namespace Account

@[simp] def weight : Account → Caller → Nat
  | .calls work, caller => if caller.origin.work = work then 1 else 0
  | .polls, ⟨_, _, .pausing _ _ _⟩ | .refreshes, ⟨_, _, .queued⟩ | .fetches, ⟨_, _, .fetching⟩ => 1
  | _, _ => 0

def running : Account → Renewal → Nat
  | .renewals, .fetching _ => 1
  | _, _ => 0

@[simp] def opens : Account → Deed → Nat
  | .calls work, .asked origin => if origin.work = work then 1 else 0
  | .polls, .asked (.resolving _) => 1
  | .refreshes, .asked .forced | .refreshes, .fellThrough _ => 1
  | .fetches, .fetching _ => 1
  | .renewals, .renewing => 1
  | _, _ => 0

@[simp] def closes : Account → Deed → Nat
  | .calls work, .answered origin _ => if origin.work = work then 1 else 0
  | .polls, .hit | .polls, .fellThrough _ => 1
  | .refreshes, .absorbed _ _ | .refreshes, .fetching _ => 1
  | .fetches, .landed _ _ => 1
  | .renewals, .renewed _ _ => 1
  | _, _ => 0

/-- What is given up without an end. -/
@[simp] def forfeits : Account → Deed → Nat
  | account, .left caller => account.weight caller
  | .renewals, .aborted => 1
  | _, _ => 0

theorem running_eq_zero (account : Account) {renewal : Renewal}
    (resting : renewal.phase ≠ .fetching) : account.running renewal = 0 := by
  cases renewal with
  | fetching seen => exact absurd rfl resting
  | armed _ _ | queued _ | stopped => cases account <;> rfl

@[simp] def ofCaller (account : Account) (entry : Option Caller) : Nat :=
  entry.elim 0 account.weight

end Account

def tally (f : Deed → Nat) (deeds : List Deed) : Nat :=
  (deeds.map f).sum

@[simp] theorem tally_nil (f : Deed → Nat) : tally f [] = 0 := rfl

@[simp] theorem tally_cons (f : Deed → Nat) (deed : Deed) (rest : List Deed) :
    tally f (deed :: rest) = f deed + tally f rest :=
  List.sum_cons

theorem tally_append (f : Deed → Nat) (earlier later : List Deed) :
    tally f (earlier ++ later) = tally f earlier + tally f later := by
  rw [tally, List.map_append, List.sum_append]
  rfl

def counted (deeds : List Deed) (counters : Counters) : Counters :=
  deeds.foldl (fun counters deed => deed.count counters) counters

/-- The deeds of one caller, which take it from one wait to the next. -/
def Shifts (before after : Option Caller) (deeds : List Deed) : Prop :=
  ∀ account : Account, account.ofCaller before + tally account.opens deeds =
    account.ofCaller after + tally account.closes deeds + tally account.forfeits deeds

theorem Shifts.cons {first second last : Option Caller} {deed : Deed} {rest : List Deed}
    (one : Shifts first second [deed]) (others : Shifts second last rest) :
    Shifts first last (deed :: rest) := by
  intro account
  have here := one account
  have there := others account
  simp only [tally_cons, tally_nil] at here ⊢
  omega

/-- How much work is in progress. -/
def outstanding (b : Broker) (account : Account) : Nat :=
  b.load account.weight + account.running b.renewal

/-- What a caller asks for is entered before its turn. -/
theorem shifts_asked (id polls left due : Nat) (origin : Origin) :
    Shifts none (some ⟨id, origin,
      match origin with
      | .forced => .queued
      | .resolving _ => .pausing polls left due⟩) [.asked origin] := by
  intro account
  cases account <;> cases origin <;> simp

def cause? (b : Broker) : Input → Option Cause
  | .force id => if b.caller? id = none then some .force else none
  | .resolve id _ _ => if b.caller? id = none then some .resolve else none
  | .cancel id => if b.caller? id = none then none else some .leave
  | .land .renewal (.error _) => if b.phase .renewal = .fetching then some .renewalFailed else none
  | .drop => if b.handles = 1 ∧ b.phase .renewal = .fetching then some .renewalAborted else none
  | _ => none

theorem cause?_of_misfit {b : Broker} {now : Nat} {input : Input} (misfit : ¬ b.Fits now input) :
    b.cause? input = none := by
  cases input with
  | force id | resolve id _ _ => exact if_neg misfit
  | cancel id => exact if_pos (Decidable.byContradiction misfit)
  | land party outcome =>
      cases party with
      | caller id => rfl
      | renewal =>
          cases outcome with
          | ok credential => rfl
          | error error => exact if_neg misfit
  | drop => exact absurd trivial misfit
  | poll _ | timer | rearm | acquire _ | clone | write _ => rfl

section Sourced

variable [Url.Idna]

/-- What a party's turn is heard as where it may begin a fetch. -/
def Ran.voiced (source : Voice) (ran : Ran) : List Observation :=
  ran.observed ++
    match ran.next with
    | .fetch => source.began
    | _ => []

/-- What is observed of an input: what the broker says, after what the source says of a fetch that
lands and before what it says of one that begins. -/
def heard (source : Voice) (b : Broker) (now : Nat) (input : Input) : List Observation :=
  (b.landing? input).elim [] (source.ended b.counters.fetches) ++ (b.step now input).voiced source

/-- These deeds lead from one broker to another, and this is what was observed and what they were
done for. -/
structure Booked (source : Voice) (b c : Broker) (heard : List Observation)
    (causes : List Cause) (deeds : List Deed) : Prop where
  counters : c.counters = counted deeds b.counters
  heard : heard = deeds.flatMap (Deed.said b.config source)
  causes : causes = deeds.filterMap Deed.cause?
  balance : ∀ account, b.outstanding account + tally account.opens deeds =
    c.outstanding account + tally account.closes deeds + tally account.forfeits deeds
  distinct : b.Distinct → c.Distinct

/-- The deeds of a caller's turn. `before` is where the caller is when the turn begins: in the queue
when it is about to try the lock, between two looks when it is about to look. -/
structure Turns (source : Voice) (b : Broker) (id : Nat) (before : Option Caller) (ran : Ran)
    (voiced : List Observation) (deeds : List Deed) : Prop where
  turned : b.Turned id ran.broker
  counters : ran.broker.counters = counted deeds b.counters
  heard : voiced = deeds.flatMap (Deed.said b.config source)
  shifts : Shifts before (ran.broker.caller? id) deeds

section Turns

variable {source : Voice} {b : Broker} {now id : Nat} {ran : Ran}

theorem Turns.cons {first second : Option Caller} {deed : Deed} {rest : List Deed}
    (turns : Turns source (b.countBy deed.count) id second ran (ran.voiced source) rest)
    (shifts : Shifts first second [deed]) :
    Turns source b id first (ran.after (deed.said b.config source))
      ((ran.after (deed.said b.config source)).voiced source) (deed :: rest) where
  turned := ⟨turns.turned.callers, turns.turned.renewal⟩
  counters := turns.counters
  heard := by
    have later : ran.voiced source = rest.flatMap (Deed.said b.config source) := turns.heard
    rw [List.flatMap_cons, ← later]
    simp [Ran.voiced, Ran.after]
  shifts := shifts.cons turns.shifts

theorem turns_contend (source : Voice) (b : Broker) (now id : Nat) (origin : Origin) :
    ∃ deeds, Turns source b id (some ⟨id, origin, .queued⟩) (b.contend now id origin)
        ((b.contend now id origin).voiced source) deeds ∧
      deeds.filterMap Deed.cause? = [] := by
  have turned : b.Turned id (b.contend now id origin).broker := turned_contend
  cases lock : b.lock with
  | some holder =>
      refine ⟨[], ⟨turned, ?_, ?_, ?_⟩, rfl⟩
      · simp [contend, lock, enqueue, place, counted]
      · simp [contend, lock, Ran.voiced]
      · have entry : (b.contend now id origin).broker.caller? id = some ⟨id, origin, .queued⟩ := by
          simp only [contend, lock]
          exact (caller?_place b ⟨id, origin, .queued⟩ id).trans (if_pos rfl)
        rw [entry]
        exact fun account => rfl
  | none =>
      cases recent : b.debounced? now with
      | some since =>
          refine ⟨[.absorbed origin since, .answered origin b.store.current.answer],
            ⟨turned, ?_, ?_, ?_⟩, rfl⟩
          · simp [contend, lock, refresh, recent, answer, dismiss, unlock_fst, countBy, counted]
          · simp [contend, lock, refresh, recent, answer, unlock_fst, countBy, Ran.voiced,
              Ran.after, Ran.waking]
          · have entry : (b.contend now id origin).broker.caller? id = none := by
              simp only [contend, lock, refresh, recent]
              exact (caller?_dismiss _ id id).trans (if_pos rfl)
            rw [entry]
            intro account
            cases account <;> simp
      | none =>
          refine ⟨[.fetching origin], ⟨turned, ?_, ?_, ?_⟩, rfl⟩
          · simp [contend, lock, refresh, recent, counted]
          · simp [contend, lock, refresh, recent, Ran.voiced]
          · have entry : (b.contend now id origin).broker.caller? id =
                some ⟨id, origin, .fetching⟩ := by
              simp only [contend, lock, refresh, recent]
              exact (caller?_place b ⟨id, origin, .fetching⟩ id).trans (if_pos rfl)
            rw [entry]
            intro account
            cases account <;> rfl

theorem turns_look (source : Voice) (b : Broker) (now id polls left due : Nat)
    (failed : String) :
    ∃ deeds, Turns source b id (some ⟨id, .resolving failed, .pausing polls left due⟩)
        (b.look now id failed polls left) ((b.look now id failed polls left).voiced source) deeds ∧
      deeds.filterMap Deed.cause? = [] := by
  have turned : b.Turned id (b.look now id failed polls left).broker := turned_look
  cases other : b.other? failed with
  | some snapshot =>
      refine ⟨[.hit, .answered (.resolving failed) snapshot.answer], ⟨turned, ?_, ?_, ?_⟩, rfl⟩
      · simp [look, other, answer, dismiss, countBy, counted]
      · simp [look, other, answer, Ran.voiced]
      · have entry : (b.look now id failed polls left).broker.caller? id = none := by
          simp only [look, other]
          exact (caller?_dismiss _ id id).trans (if_pos rfl)
        rw [entry]
        intro account
        cases account <;> simp
  | none =>
      by_cases more : 1 < left
      · refine ⟨[], ⟨turned, ?_, ?_, ?_⟩, rfl⟩
        · simp [look, other, more, place, counted]
        · simp [look, other, more, Ran.voiced]
        · have entry : (b.look now id failed polls left).broker.caller? id =
              some ⟨id, .resolving failed,
                .pausing polls (left - 1) (now + b.config.pollInterval.nanos)⟩ := by
            simp only [look, other, more, if_true]
            exact (caller?_place b _ id).trans (if_pos rfl)
          rw [entry]
          intro account
          cases account <;> rfl
      · obtain ⟨deeds, turns, quiet⟩ :=
          turns_contend source (b.countBy (Deed.fellThrough polls).count) now id (.resolving failed)
        have fell : Shifts (some ⟨id, .resolving failed, .pausing polls left due⟩)
            (some ⟨id, .resolving failed, .queued⟩) [.fellThrough polls] := by
          intro account
          cases account <;> simp
        refine ⟨.fellThrough polls :: deeds, ?_, quiet⟩
        simp only [look, other, more, if_false]
        exact turns.cons fell

theorem Turns.booked {voiced said : List Observation} {deeds : List Deed} {causes : List Cause}
    (turns : Turns source b id (b.caller? id) ran voiced deeds) (distinct : b.Distinct)
    (quiet : deeds.filterMap Deed.cause? = causes) (same : said = voiced) :
    Booked source b ran.broker said causes deeds where
  counters := turns.counters
  heard := same.trans turns.heard
  causes := quiet.symm
  balance := by
    intro account
    have load := turns.turned.load distinct account.weight
    have shifts := turns.shifts account
    simp only [outstanding, turns.turned.renewal, Account.ofCaller] at load shifts ⊢
    omega
  distinct := turns.turned.distinct

/-- Where no caller is concerned, only the renewal can begin or end something. -/
theorem booked_of_renewal {c : Broker} {voiced : List Observation} {causes : List Cause}
    {deeds : List Deed} (callers : c.callers = b.callers)
    (counters : c.counters = counted deeds b.counters)
    (heard : voiced = deeds.flatMap (Deed.said b.config source))
    (quiet : causes = deeds.filterMap Deed.cause?)
    (balance : ∀ account : Account, account.running b.renewal + tally account.opens deeds =
      account.running c.renewal + tally account.closes deeds + tally account.forfeits deeds) :
    Booked source b c voiced causes deeds := by
  refine ⟨counters, heard, quiet, fun account => ?_, fun distinct => ?_⟩
  · have same : c.load account.weight = b.load account.weight := by
      rw [load, callers]
      rfl
    have here := balance account
    simp only [outstanding, same]
    omega
  · rw [Distinct, callers]
    exact distinct

theorem booked_idle {c : Broker} (callers : c.callers = b.callers)
    (counters : c.counters = b.counters) (renewal : c.renewal = b.renewal) :
    Booked source b c [] [] [] := by
  refine booked_of_renewal callers counters rfl rfl fun account => ?_
  rw [renewal]
  rfl

theorem booked_resting {c : Broker} (callers : c.callers = b.callers)
    (counters : c.counters = b.counters) (before : b.renewal.phase ≠ .fetching)
    (after : c.renewal.phase ≠ .fetching) : Booked source b c [] [] [] := by
  refine booked_of_renewal callers counters rfl rfl fun account => ?_
  rw [account.running_eq_zero before, account.running_eq_zero after]
  rfl

theorem booked_contendRenewal (source : Voice) (b : Broker) (now seen : Nat)
    (resting : b.renewal.phase ≠ .fetching) :
    ∃ deeds, Booked source b (b.contendRenewal now seen).broker
      ((b.contendRenewal now seen).voiced source) [] deeds := by
  cases lock : b.lock with
  | some holder =>
      refine ⟨[], ?_⟩
      simp only [contendRenewal, lock]
      exact booked_resting rfl rfl resting (by simp [enqueue, Renewal.phase])
  | none =>
      by_cases current : b.version = seen
      · refine ⟨[.renewing], ?_⟩
        simp only [contendRenewal, lock, renew, current, if_true]
        refine booked_of_renewal rfl rfl ?_ rfl fun account => ?_
        · simp [Ran.voiced]
        · rw [account.running_eq_zero resting]
          cases account <;> rfl
      · refine ⟨[], ?_⟩
        have voiced : (b.contendRenewal now seen).voiced source = [] := by
          simp [contendRenewal, lock, renew, current, Ran.voiced, Ran.waking, reschedule, arm]
        rw [voiced]
        simp only [contendRenewal, lock, renew, current, if_false]
        refine booked_resting ?_ ?_ resting ?_
        · simp [reschedule, arm, unlock_fst]
        · simp [reschedule, arm, unlock_fst]
        · simp [reschedule, arm, Renewal.phase]

/-- A party that has left the queue has done nothing yet. -/
theorem Booked.of_dequeue {c : Broker} {party : Party} {said : List Observation}
    {causes : List Cause} {deeds : List Deed}
    (booked : Booked source (b.dequeue party) c said causes deeds) :
    Booked source b c said causes deeds :=
  ⟨booked.counters, booked.heard, booked.causes, booked.balance, booked.distinct⟩

theorem booked_landRefresh {origin : Origin} {outcome : Except Error Credential}
    (found : b.caller? id = some ⟨id, origin, .fetching⟩) (distinct : b.Distinct)
    (source : Voice) :
    ∃ deeds, Booked source b (b.landRefresh now id origin outcome).broker
      (source.ended b.counters.fetches outcome ++
        (b.landRefresh now id origin outcome).voiced source) [] deeds := by
  refine ⟨[.landed b.counters.fetches outcome,
    .answered origin (b.store.write outcome).current.answer], ?_⟩
  have entry : (b.landRefresh now id origin outcome).broker.caller? id = none :=
    (caller?_dismiss _ id id).trans (if_pos rfl)
  have turn : Turns source b id (b.caller? id) (b.landRefresh now id origin outcome)
      (source.ended b.counters.fetches outcome ++
        (b.landRefresh now id origin outcome).voiced source)
      [.landed b.counters.fetches outcome,
        .answered origin (b.store.write outcome).current.answer] := by
    refine ⟨turned_landRefresh, ?_, ?_, ?_⟩
    · simp [landRefresh, answer, dismiss, unlock_fst, publish, counted]
    · simp [landRefresh, answer, unlock_fst, publish, Ran.voiced, Ran.waking]
    · rw [found, entry]
      intro account
      cases account <;> simp
  exact turn.booked distinct rfl rfl

theorem booked_landRenewal {seen : Nat} {outcome : Except Error Credential}
    (found : b.renewal = .fetching seen) (source : Voice) :
    ∃ deeds, Booked source b (b.landRenewal now seen outcome).broker
      (source.ended b.counters.fetches outcome ++
        (b.landRenewal now seen outcome).voiced source)
      (b.cause? (.land .renewal outcome)).toList deeds := by
  have fetching := phase_fetching_renewal.mpr ⟨seen, found⟩
  refine ⟨[.renewed b.counters.fetches outcome], booked_of_renewal ?_ ?_ ?_ ?_ fun account => ?_⟩
  · cases outcome <;> simp [landRenewal, arm, unlock_fst, countBy]
  · cases outcome <;> simp [landRenewal, arm, unlock_fst, countBy, counted]
  · cases outcome <;>
      simp [landRenewal, arm, unlock_fst, countBy, Ran.voiced, Ran.waking, Ran.after]
  · cases outcome <;> simp [cause?, fetching]
  · have resting : (b.landRenewal now seen outcome).broker.renewal.phase ≠ .fetching := by
      simp [landRenewal, arm, Renewal.phase]
    rw [found, account.running_eq_zero resting]
    cases account <;> rfl

theorem booked_cancel {caller : Caller} (found : b.caller? id = some caller)
    (distinct : b.Distinct) (source : Voice) :
    Booked source b ((b.dismiss id).leave (.caller id)).broker [] [.leave] [.left caller] := by
  obtain ⟨_, _, _, same⟩ := (b.dismiss id).leave_eq (.caller id)
  have turned : b.Turned id ((b.dismiss id).leave (.caller id)).broker := by
    rw [same]
    exact turned_dismiss rfl rfl
  have entry : ((b.dismiss id).leave (.caller id)).broker.caller? id = none := by
    rw [same]
    exact (caller?_dismiss b id id).trans (if_pos rfl)
  have turns : Turns source b id (b.caller? id) ((b.dismiss id).leave (.caller id)) []
      [.left caller] := by
    refine ⟨turned, ?_, rfl, ?_⟩
    · rw [same]
      rfl
    · rw [found, entry]
      intro account
      cases account <;> simp
  exact turns.booked distinct rfl rfl

theorem booked_dropLast (last : b.handles = 1) (source : Voice) :
    ∃ deeds, Booked source b ({ b with handles := 0, renewal := .stopped }.leave .renewal).broker
      [] (b.cause? .drop).toList deeds := by
  obtain ⟨_, _, _, same⟩ :=
    ({ b with handles := 0, renewal := .stopped } : Broker).leave_eq .renewal
  rw [same]
  cases found : b.renewal with
  | fetching seen =>
      refine ⟨[.aborted], booked_of_renewal rfl rfl rfl ?_ fun account => ?_⟩
      · simp [cause?, last, phase, found, Renewal.phase]
      · rw [found]
        cases account <;> rfl
  | armed _ _ | queued _ | stopped =>
      have cause : b.cause? .drop = none := by
        simp [cause?, phase, found, Renewal.phase]
      rw [cause]
      exact ⟨[], booked_resting rfl rfl (by simp [found, Renewal.phase]) (by simp [Renewal.phase])⟩

theorem Moves.booked {input : Input} (moves : b.Moves now input ran) (source : Voice)
    (distinct : b.Distinct) :
    ∃ deeds, Booked source b ran.broker
      ((b.landing? input).elim [] (source.ended b.counters.fetches) ++ ran.voiced source)
      (b.cause? input).toList deeds := by
  cases moves with
  | idle input misfit =>
      have landing : b.landing? input = none := by
        cases input with
        | land party outcome => exact if_neg misfit
        | _ => rfl
      rw [landing, cause?_of_misfit misfit]
      exact ⟨[], booked_idle rfl rfl rfl⟩
  | force id absent =>
      obtain ⟨deeds, turns, quiet⟩ :=
        turns_contend source (b.countBy (Deed.asked .forced).count) now id .forced
      have turn := turns.cons (shifts_asked id 0 0 0 .forced)
      rw [← absent] at turn
      refine ⟨_, turn.booked distinct ?_ rfl⟩
      simp [cause?, absent, quiet]
  | resolve id failed polls absent =>
      obtain ⟨deeds, turns, quiet⟩ :=
        turns_look source (b.countBy (Deed.asked (.resolving failed)).count) now id polls polls 0
          failed
      have turn := turns.cons (shifts_asked id polls polls 0 (.resolving failed))
      rw [← absent] at turn
      refine ⟨_, turn.booked distinct ?_ rfl⟩
      simp [cause?, absent, quiet]
  | poll id failed polls left due found ripe =>
      obtain ⟨deeds, turns, quiet⟩ := turns_look source b now id polls left due failed
      rw [← found] at turns
      exact ⟨deeds, turns.booked distinct quiet rfl⟩
  | acquire id origin found =>
      have same : (b.dequeue (.caller id)).caller? id = some ⟨id, origin, .queued⟩ := found
      obtain ⟨deeds, turns, quiet⟩ := turns_contend source (b.dequeue (.caller id)) now id origin
      rw [← same] at turns
      exact ⟨deeds, (turns.booked distinct quiet rfl).of_dequeue⟩
  | timer deadline seen found ripe =>
      exact booked_contendRenewal source b now seen (by simp [found, Renewal.phase])
  | acquireRenewal seen found =>
      have resting : (b.dequeue .renewal).renewal.phase ≠ .fetching := by
        simp [dequeue, found, Renewal.phase]
      obtain ⟨deeds, booked⟩ := booked_contendRenewal source (b.dequeue .renewal) now seen resting
      exact ⟨deeds, booked.of_dequeue⟩
  | rearm deadline seen found stale =>
      refine ⟨[], booked_resting rfl rfl (by simp [found, Renewal.phase]) ?_⟩
      simp [reschedule, arm, Renewal.phase]
  | land id origin outcome found =>
      have landing : b.landing? (.land (.caller id) outcome) = some outcome :=
        if_pos (phase_fetching_caller.mpr ⟨origin, found⟩)
      rw [landing]
      exact booked_landRefresh found distinct source
  | landRenewal seen outcome found =>
      have landing : b.landing? (.land .renewal outcome) = some outcome :=
        if_pos (phase_fetching_renewal.mpr ⟨seen, found⟩)
      rw [landing]
      exact booked_landRenewal found source
  | cancel id caller found =>
      have cause : b.cause? (.cancel id) = some .leave := by
        simp [cause?, found]
      rw [cause]
      exact ⟨_, booked_cancel found distinct source⟩
  | dropLast last => exact booked_dropLast last source
  | drop others =>
      have cause : b.cause? .drop = none := if_neg fun both => others both.1
      rw [cause]
      exact ⟨[], booked_idle rfl rfl rfl⟩
  | clone | write => exact ⟨[], booked_idle rfl rfl rfl⟩

end Turns

theorem step_booked (source : Voice) {b : Broker} (distinct : b.Distinct) (now : Nat)
    (input : Input) :
    ∃ deeds, Booked source b (b.step now input).broker (b.heard source now input)
      (b.cause? input).toList deeds :=
  (step_moves b now input).booked source distinct

/-- What is observed of a run. -/
def sightings (source : Voice) (b : Broker) : List (Nat × Input) → List Observation
  | [] => []
  | (now, input) :: rest =>
    b.heard source now input ++ (b.step now input).broker.sightings source rest

def causes (b : Broker) : List (Nat × Input) → List Cause
  | [] => []
  | (now, input) :: rest => (b.cause? input).toList ++ (b.step now input).broker.causes rest

theorem Booked.append {source : Voice} {b c d : Broker} {said later : List Observation}
    {causes more : List Cause} {deeds rest : List Deed}
    (first : Booked source b c said causes deeds) (config : c.config = b.config)
    (second : Booked source c d later more rest) :
    Booked source b d (said ++ later) (causes ++ more) (deeds ++ rest) where
  counters := by
    rw [second.counters, first.counters, counted, counted, counted, List.foldl_append]
  heard := by
    rw [first.heard, second.heard, config, List.flatMap_append]
  causes := by
    rw [first.causes, second.causes, List.filterMap_append]
  balance := by
    intro account
    have here := first.balance account
    have there := second.balance account
    simp only [tally_append]
    omega
  distinct := second.distinct ∘ first.distinct

/-- The ledger of a run. -/
theorem after_booked (source : Voice) {b : Broker} (distinct : b.Distinct)
    (inputs : List (Nat × Input)) :
    ∃ deeds, Booked source b (b.after inputs) (b.sightings source inputs) (b.causes inputs)
      deeds := by
  induction inputs generalizing b with
  | nil => exact ⟨[], booked_idle rfl rfl rfl⟩
  | cons timed rest ih =>
      obtain ⟨now, input⟩ := timed
      obtain ⟨deeds, first⟩ := step_booked source distinct now input
      obtain ⟨more, second⟩ := ih (first.distinct distinct)
      exact ⟨deeds ++ more, first.append (config_step b now input) second⟩

end Sourced

end Bearer.Broker
