import Bearer.Proofs.Broker.Rush
import Bearer.Proofs.Client.Crowd
import Bearer.Proofs.Client.Request

/-!
No thundering herd. However many calls are refused because of one credential, the source is asked
once for another, every call sends at most two requests, and every call whose requests can be built
succeeds.
-/
namespace Bearer

section Calls

variable [Url.Idna] {x y : Credential}

/-- What a call can be while `x` is refused and `y` follows it: where it is, what it has sent, and
with which credential each of its requests was built. -/
inductive Call.Sound (x y : Credential) : Call → Prop where
  | first (plan : Plan) (polls : Nat) (value : String) (request : Http.Request)
      (carries : value = x.value ∨ value = y.value) (built : plan.request value = .ok request) :
      Sound x y ⟨plan, polls, [request], false, .sent (.first value)⟩
  | refused (plan : Plan) (polls : Nat) (request : Http.Request)
      (built : plan.request x.value = .ok request) :
      Sound x y ⟨plan, polls, [request], true, .resolving⟩
  | second (plan : Plan) (polls : Nat) (old new : Http.Request)
      (builtOld : plan.request x.value = .ok old) (builtNew : plan.request y.value = .ok new) :
      Sound x y ⟨plan, polls, [old, new], true, .sent (.second y.value)⟩
  | served (plan : Plan) (polls : Nat) (value : String) (request : Http.Request)
      (reply : Http.Reply) (carries : value = x.value ∨ value = y.value)
      (built : plan.request value = .ok request)
      (success : plan.inspect reply = .ok (.done reply)) :
      Sound x y ⟨plan, polls, [request], false, .returned (.ok reply)⟩
  | recovered (plan : Plan) (polls : Nat) (old new : Http.Request) (reply : Http.Reply)
      (builtOld : plan.request x.value = .ok old) (builtNew : plan.request y.value = .ok new)
      (success : plan.inspect reply = .ok (.done reply)) :
      Sound x y ⟨plan, polls, [old, new], true, .returned (.ok reply)⟩
  | unsent (plan : Plan) (polls : Nat) (value : String) (error : Error)
      (carries : value = x.value ∨ value = y.value) (failed : plan.request value = .error error) :
      Sound x y ⟨plan, polls, [], false, .returned (.error error)⟩
  | unsentAgain (plan : Plan) (polls : Nat) (old : Http.Request) (error : Error)
      (builtOld : plan.request x.value = .ok old) (failed : plan.request y.value = .error error) :
      Sound x y ⟨plan, polls, [old], true, .returned (.error error)⟩

/-- A bound on what a call still does, where it does not wait for the broker. -/
def Call.rank (call : Call) : Nat :=
  match call.stage with
  | .sent (.first _) => call.polls + 5
  | .sent (.second _) => 1
  | .begun | .resolving | .returned _ => 0

theorem Plan.attempt_eq (plan : Plan) (attempt : Attempt) :
    (∃ request, plan.request attempt.value = .ok request ∧
        plan.attempt attempt = .send request attempt) ∨
      ∃ error, plan.request attempt.value = .error error ∧
        plan.attempt attempt = .finish (.error error) := by
  simp only [Plan.attempt]
  cases plan.request attempt.value with
  | ok request => exact .inl ⟨request, rfl, rfl⟩
  | error error => exact .inr ⟨error, rfl, rfl⟩

theorem Call.sound_start (plan : Plan) (polls : Nat) {c : Credential} (carries : c = x ∨ c = y) :
    let call := (Call.create plan polls).moved (plan.start (.ok c))
    call.Sound x y ∧ call.refused = false ∧ call.stage ≠ .resolving ∧ call.polls = polls ∧
      call.rank ≤ polls + 5 := by
  have value : c.value = x.value ∨ c.value = y.value :=
    carries.imp (congrArg Credential.value) (congrArg Credential.value)
  intro call
  obtain ⟨request, built, move⟩ | ⟨error, failed, move⟩ := plan.attempt_eq (.first c.value)
  · have eq : call = ⟨plan, polls, [request], false, .sent (.first c.value)⟩ := by
      simp [call, Plan.start, move, Call.moved, Call.create]
    rw [eq]
    exact ⟨.first plan polls c.value request value built, rfl, by simp, rfl, Nat.le_refl _⟩
  · have eq : call = ⟨plan, polls, [], false, .returned (.error error)⟩ := by
      simp [call, Plan.start, move, Call.moved, Call.create]
    rw [eq]
    exact ⟨.unsent plan polls c.value error value failed, rfl, by simp, rfl, Nat.zero_le _⟩

/-- A single request was made with `x` or with `y`. -/
theorem Call.Sound.made_once {call : Call} (sound : call.Sound x y) (first : Http.Request)
    (sent : call.sent = [first]) : call.plan.Makes x.value first ∨ call.plan.Makes y.value first := by
  cases sound with
  | first plan polls value request carries built
  | served plan polls value request reply carries built success =>
      cases sent
      have made := Plan.makes_of_request built
      rcases carries with rfl | rfl
      · exact .inl made
      · exact .inr made
  | refused plan polls request built | unsentAgain plan polls request error built failed =>
      cases sent
      exact .inl (Plan.makes_of_request built)
  | second | recovered | unsent => cases sent

/-- Of two requests the first was made with `x` and the second with `y`. -/
theorem Call.Sound.made_twice {call : Call} (sound : call.Sound x y) (first second : Http.Request)
    (sent : call.sent = [first, second]) :
    call.plan.Makes x.value first ∧ call.plan.Makes y.value second := by
  cases sound with
  | second plan polls old new builtOld builtNew
  | recovered plan polls old new reply builtOld builtNew success =>
      cases sent
      exact ⟨Plan.makes_of_request builtOld, Plan.makes_of_request builtNew⟩
  | first | refused | served | unsent | unsentAgain => cases sent

theorem Call.Sound.resolved {call : Call} (sound : call.Sound x y)
    (resolving : call.stage = .resolving) :
    let next := call.moved (call.plan.resolved (.ok y))
    next.Sound x y ∧ call.refused = true ∧ next.refused = true ∧ next.stage ≠ .resolving ∧
      next.polls = call.polls ∧ call.rank = 0 ∧ next.rank ≤ 1 := by
  cases sound with
  | refused plan polls old built =>
      intro next
      obtain ⟨new, builtNew, move⟩ | ⟨error, failed, move⟩ := plan.attempt_eq (.second y.value)
      · have eq : next = ⟨plan, polls, [old, new], true, .sent (.second y.value)⟩ := by
          simp [next, Plan.resolved, move, Call.moved]
        rw [eq]
        exact ⟨.second plan polls old new built builtNew, rfl, rfl, by simp, rfl, rfl, Nat.le_refl _⟩
      · have eq : next = ⟨plan, polls, [old], true, .returned (.error error)⟩ := by
          simp [next, Plan.resolved, move, Call.moved]
        rw [eq]
        exact ⟨.unsentAgain plan polls old error built failed, rfl, rfl, by simp, rfl, rfl,
          Nat.zero_le _⟩
  | first | second | served | recovered | unsent | unsentAgain => cases resolving

theorem Call.Sound.accepted {call : Call} {attempt : Attempt} {reply : Http.Reply}
    (sound : call.Sound x y) (sent : call.stage = .sent attempt)
    (success : call.plan.inspect reply = .ok (.done reply)) :
    let next := call.moved (.finish (.ok reply))
    next.Sound x y ∧ next.refused = call.refused ∧ next.polls = call.polls ∧
      next.rank < call.rank := by
  cases sound with
  | first plan polls value request carries built =>
      exact ⟨.served plan polls value request reply carries built success, rfl, rfl, Nat.succ_pos _⟩
  | second plan polls old new builtOld builtNew =>
      exact ⟨.recovered plan polls old new reply builtOld builtNew success, rfl, rfl, Nat.one_pos⟩
  | refused | served | recovered | unsent | unsentAgain => cases sent

theorem Call.Sound.rejected {call : Call} {attempt : Attempt} (differs : y.value ≠ x.value)
    (sound : call.Sound x y) (sent : call.stage = .sent attempt)
    (carries : attempt.value = x.value) (code : Int) :
    let next := call.moved (.resolve x.value code)
    attempt = .first x.value ∧ next.Sound x y ∧ call.refused = false ∧ next.refused = true ∧
      next.stage = .resolving ∧ next.polls = call.polls ∧ next.rank = 0 ∧
      call.rank = call.polls + 5 := by
  cases sound with
  | first plan polls value request either built =>
      cases sent
      have same : value = x.value := carries
      subst same
      exact ⟨rfl, .refused plan polls request built, rfl, rfl, rfl, rfl, rfl, rfl⟩
  | second plan polls old new builtOld builtNew =>
      cases sent
      exact absurd carries differs
  | refused | served | recovered | unsent | unsentAgain => cases sent

end Calls

namespace Crowd

theorem wakes {x y : Credential} {start : Broker.Counters} {now id asked : Nat} {b : Broker}
    (h : b.Rush x y start now asked)
    (ready : b.ready now (.caller id) = true) :
    ∃ input, b.onWake? now (.caller id) = some input ∧ b.Stirs x y now id input ∧
      input.asking = 0 ∧ input.cost = 0 := by
  cases found : b.caller? id with
  | none => simp [Broker.ready, found] at ready
  | some caller =>
      obtain ⟨number, origin, wait⟩ := caller
      have same : number = id := Broker.caller?_id found
      have wants : origin = .resolving x.value := h.origins id _ found
      subst wants
      rw [same] at found
      cases wait with
      | pausing polls left due =>
          have ripe : due ≤ now := by
            simpa [Broker.ready, found] using ready
          refine ⟨.poll id, ?_, .look left _ (.again polls left due found ripe), rfl, rfl⟩
          simp [Broker.onWake?, found]
      | queued =>
          have told : b.notified = true ∧ b.queue.head? = some (.caller id) := by
            simpa [Broker.ready, found] using ready
          refine ⟨.acquire (.caller id), ?_, .acquire found told.1 told.2, rfl, rfl⟩
          simp [Broker.onWake?, found]
      | fetching => simp [Broker.ready, found] at ready

section Runs

variable [Url.Idna] {x y : Credential} {start : Broker.Counters} {c : Crowd}

/-- A bound on what calls and broker still do, and what the calls of a run may do at most. -/
def rank (c : Crowd) : Nat :=
  (c.calls.map Call.rank).sum + c.broker.rank

def budget (c : Crowd) : Nat :=
  (c.calls.map fun call => call.polls + 6).sum

theorem enter_counts {id : Nat} {call : Call} (found : c.calls[id]? = some call) (move : Move) :
    (c.enter id call move).refusals + call.refused.toNat =
        c.refusals + (call.moved move).refused.toNat ∧
      (c.enter id call move).rank + call.rank = c.rank + (call.moved move).rank ∧
      (c.enter id call move).budget + call.polls = c.budget + (call.moved move).polls := by
  have refusals := sum_set found (call.moved move) fun call => call.refused.toNat
  have ranks := sum_set found (call.moved move) Call.rank
  have budgets := sum_set found (call.moved move) fun call => call.polls + 6
  refine ⟨refusals, ?_, ?_⟩
  · simp only [rank, enter] at ranks ⊢
    omega
  · simp only [budget, enter] at budgets ⊢
    omega

/-- Calls and broker agree: who asks the broker is a call that was refused, and a refused call goes
on only after the one fetch has landed. -/
structure Sound (x y : Credential) (start : Broker.Counters) (c : Crowd) : Prop where
  rush : Broker.Rush x y start c.clock c.refusals c.broker
  calls : ∀ call ∈ c.calls, call.Sound x y
  asks : ∀ id, c.broker.caller? id ≠ none ↔
    ∃ call, c.calls[id]? = some call ∧ call.stage = .resolving
  owed : c.broker.lastRefresh = none → ∀ call ∈ c.calls, call.refused = true →
    call.stage = .resolving
  paid : c.broker.lastRefresh ≠ none → 0 < c.refusals

theorem refusals_pos {call : Call} (member : call ∈ c.calls) (refused : call.refused = true) :
    0 < c.refusals := by
  refine List.sum_pos_iff_exists_pos_nat.mpr ⟨call.refused.toNat, ?_, by simp [refused]⟩
  exact List.mem_map_of_mem (f := fun call : Call => call.refused.toNat) member

/-- The same while one call is on its way to the broker or back. -/
structure SoundBut (x y : Credential) (id : Nat) (c : Crowd) : Prop where
  calls : ∀ call ∈ c.calls, call.Sound x y
  asks : ∀ other, other ≠ id → (c.broker.caller? other ≠ none ↔
    ∃ call, c.calls[other]? = some call ∧ call.stage = .resolving)
  owed : c.broker.lastRefresh = none → ∀ call ∈ c.calls, call.refused = true →
    call.stage = .resolving

theorem Sound.but (h : c.Sound x y start) (id : Nat) : c.SoundBut x y id :=
  ⟨h.calls, fun other _ => h.asks other, h.owed⟩

/-- A refused call goes on by one turn of its caller. -/
theorem SoundBut.input {id asked : Nat} {call : Call} {input : Broker.Input}
    (h : c.SoundBut x y id) (differs : y.value ≠ x.value)
    (rush : Broker.Rush x y start c.clock asked c.broker)
    (stirs : c.broker.Stirs x y c.clock id input) (count : asked + input.asking = c.refusals)
    (found : c.calls[id]? = some call) (resolving : call.stage = .resolving) :
    (c.input (.caller id) input).Sound x y start ∧
      (c.input (.caller id) input).rank < c.rank + input.cost ∧
      (c.input (.caller id) input).budget = c.budget := by
  obtain ⟨entry, turn⟩ := rush.turn differs stirs
  have turned := stirs.turned
  have stepped := rush.step differs stirs
  rw [count] at stepped
  have less := turn.rank turned rush.distinct
  have caller := turn.caller?
  have answer := turn.answer
  have last := turn.lastRefresh
  have member : call ∈ c.calls := List.mem_of_getElem? found
  cases entry with
  | some wait =>
      rw [input_waits answer]
      refine ⟨⟨stepped, h.calls, fun other => ?_, fun _ => h.owed last.1, ?_⟩, ?_, rfl⟩
      · by_cases own : other = id
        · subst own
          simp [caller, found, resolving]
        · rw [turned.caller? own]
          exact h.asks other own
      · exact fun landed => absurd last.2 landed
      · simp only [rank, reduceCtorEq, if_false] at less ⊢
        omega
  | none =>
      obtain ⟨snapshot, next, brings⟩ := answer
      obtain ⟨sound, refused, still, stage, polls, before, after⟩ :=
        (h.calls call member).resolved resolving
      have given : snapshot.answer = .ok y := by
        rw [Snapshot.answer, brings]
        rfl
      rw [input_answers next found, given]
      have inside : ({ c with broker := (c.broker.step c.clock input).broker } : Crowd).calls[id]? =
          some call := found
      obtain ⟨count, ranks, budget⟩ := enter_counts inside (call.plan.resolved (.ok y))
      rw [refused, still] at count
      have same := Nat.add_right_cancel count
      refine ⟨⟨?_, enter_all h.calls sound, fun other => ?_, ?_, ?_⟩, ?_, ?_⟩
      · rw [same]
        exact stepped
      · by_cases own : other = id
        · subst own
          rw [enter_own inside]
          refine iff_of_false (fun asks => asks caller) ?_
          rintro ⟨_, eq, resolving⟩
          cases eq
          exact stage resolving
        · rw [enter_other own]
          exact (turned.caller? own).symm ▸ h.asks other own
      · exact fun never => absurd never last
      · intro _
        rw [same]
        exact refusals_pos member refused
      · simp only [rank, if_true] at less ranks ⊢
        omega
      · rw [polls] at budget
        exact Nat.add_right_cancel budget

/-- What an event takes from the bound: one for what is done, and a new call brings its own. -/
def Event.Pays (event : Event) (c next : Crowd) : Prop :=
  (if event.acts then 1 else 0) + next.rank + c.budget ≤ c.rank + next.budget

theorem Sound.call (h : c.Sound x y start) (plan : Plan) (polls : Nat) :
    (c.step (.call plan polls)).Sound x y start ∧
      (Event.call plan polls).Pays c (c.step (.call plan polls)) := by
  obtain ⟨credential, current, carries⟩ := h.rush.current
  obtain ⟨sound, fresh, stage, looks, bound⟩ := Call.sound_start plan polls carries
  have same : c.step (.call plan polls) =
      { c with
        calls := c.calls ++ [(Call.create plan polls).moved (plan.start (.ok credential))] } := by
    simp only [Crowd.step, current]
  rw [same]
  generalize (Call.create plan polls).moved (plan.start (.ok credential)) = call at *
  have refusals : ({ c with calls := c.calls ++ [call] } : Crowd).refusals = c.refusals := by
    simp [Crowd.refusals, fresh]
  refine ⟨⟨by rw [refusals]; exact h.rush, ?_, fun id => ?_, ?_, ?_⟩, ?_⟩
  · intro other inside
    cases List.mem_append.mp inside with
    | inl old => exact h.calls other old
    | inr new => exact List.mem_singleton.mp new ▸ sound
  · rw [h.asks id]
    by_cases old : id < c.calls.length
    · rw [List.getElem?_append_left old]
    · have out : c.calls[id]? = none := List.getElem?_eq_none (Nat.le_of_not_lt old)
      constructor
      · rintro ⟨other, found, _⟩
        simp [out] at found
      · rintro ⟨other, found, resolving⟩
        have inside := List.mem_of_getElem? found
        rw [List.getElem?_append_right (Nat.le_of_not_lt old)] at found
        rw [List.mem_singleton.mp (List.mem_of_getElem? found)] at resolving
        exact absurd resolving stage
  · intro never other inside refused
    cases List.mem_append.mp inside with
    | inl old => exact h.owed never other old refused
    | inr new =>
        rw [List.mem_singleton.mp new, fresh] at refused
        cases refused
  · intro landed
    rw [refusals]
    exact h.paid landed
  · simp only [Event.Pays, Event.acts, rank, budget, List.map_append, List.map_cons, List.map_nil,
      List.sum_append_nat, List.sum_cons, List.sum_nil, looks, if_true]
    omega

theorem Sound.accept {id : Nat} {call : Call} {attempt : Attempt} {reply : Http.Reply}
    (h : c.Sound x y start) (found : c.calls[id]? = some call) (sent : call.stage = .sent attempt)
    (success : call.plan.inspect reply = .ok (.done reply)) :
    (c.step (.reply id (.ok reply))).Sound x y start ∧
      (Event.reply id (.ok reply)).Pays c (c.step (.reply id (.ok reply))) := by
  have member : call ∈ c.calls := List.mem_of_getElem? found
  obtain ⟨sound, still, polls, less⟩ := (h.calls call member).accepted sent success
  have step : c.step (.reply id (.ok reply)) = c.enter id call (.finish (.ok reply)) := by
    simp only [Crowd.step, found, sent, Plan.received, Except.bind, success, receive]
  obtain ⟨count, ranks, budget⟩ := enter_counts found (.finish (.ok reply))
  rw [still] at count
  have same := Nat.add_right_cancel count
  have waiting : call.stage ≠ .resolving := by simp [sent]
  rw [step]
  refine ⟨⟨?_, enter_all h.calls sound, fun other => ?_, fun never => ?_, fun landed => ?_⟩, ?_⟩
  · rw [same]
    exact h.rush
  · rw [show (c.enter id call (.finish (.ok reply))).broker = c.broker from rfl, h.asks other]
    by_cases own : other = id
    · subst own
      rw [enter_own found, found]
      refine iff_of_false ?_ ?_
      · rintro ⟨_, eq, resolving⟩
        cases eq
        exact waiting resolving
      · rintro ⟨_, eq, resolving⟩
        cases eq
        cases resolving
    · rw [enter_other own]
  · exact enter_all (h.owed never) fun refused =>
      absurd (h.owed never call member (still ▸ refused)) waiting
  · rw [same]
    exact h.paid landed
  · simp only [Event.Pays, Event.acts, if_true]
    omega

theorem Sound.refuse {id : Nat} {call : Call} {attempt : Attempt} {reply : Http.Reply}
    {status : Issuer.Status} (h : c.Sound x y start) (differs : y.value ≠ x.value)
    (found : c.calls[id]? = some call) (sent : call.stage = .sent attempt)
    (carries : attempt.value = x.value)
    (expired : call.plan.inspect reply = .ok (.expired status)) :
    (c.step (.reply id (.ok reply))).Sound x y start ∧
      (Event.reply id (.ok reply)).Pays c (c.step (.reply id (.ok reply))) := by
  have member : call ∈ c.calls := List.mem_of_getElem? found
  obtain ⟨rfl, sound, before, refused, stage, polls, after, rank⟩ :=
    (h.calls call member).rejected differs sent carries status.errcode
  have step : c.step (.reply id (.ok reply)) =
      (c.enter id call (.resolve x.value status.errcode)).input (.caller id)
        (.resolve id x.value call.polls) := by
    simp only [Crowd.step, found, sent, Plan.received, Except.bind, expired, receive]
  obtain ⟨count, ranks, budget⟩ := enter_counts found (.resolve x.value status.errcode)
  rw [before, refused] at count
  have absent : c.broker.caller? id = none := by
    refine Decidable.not_not.mp fun asks => ?_
    obtain ⟨other, this, resolving⟩ := (h.asks id).mp asks
    cases found.symm.trans this
    rw [sent] at resolving
    cases resolving
  have but : (c.enter id call (.resolve x.value status.errcode)).SoundBut x y id := by
    refine ⟨enter_all h.calls sound, fun other own => ?_, fun never => ?_⟩
    · rw [enter_other own]
      exact h.asks other
    · exact enter_all (h.owed never) fun _ => stage
  have stirs : c.broker.Stirs x y c.clock id (.resolve id x.value call.polls) :=
    .look call.polls _ (.first call.polls absent)
  obtain ⟨next, less, spent⟩ :=
    but.input differs h.rush stirs count.symm (enter_own found) stage
  rw [step]
  refine ⟨next, ?_⟩
  simp only [Event.Pays, Event.acts, if_true, spent]
  simp only [Broker.Input.cost] at less
  omega

theorem Sound.turn {id : Nat} {input : Broker.Input} (h : c.Sound x y start)
    (differs : y.value ≠ x.value) (asked : c.broker.caller? id ≠ none)
    (stirs : c.broker.Stirs x y c.clock id input) (asking : input.asking = 0)
    (cost : input.cost = 0) :
    (c.input (.caller id) input).Sound x y start ∧
      1 + (c.input (.caller id) input).rank + c.budget ≤
        c.rank + (c.input (.caller id) input).budget := by
  obtain ⟨call, found, resolving⟩ := (h.asks id).mp asked
  obtain ⟨sound, less, budget⟩ :=
    (h.but id).input differs h.rush stirs (by rw [asking, Nat.add_zero]) found resolving
  refine ⟨sound, ?_⟩
  rw [budget]
  omega

theorem Sound.wake {party : Broker.Party} (h : c.Sound x y start) (differs : y.value ≠ x.value)
    (undue : c.Undue) (ready : c.broker.ready c.clock party = true) :
    (c.step (.wake party)).Sound x y start ∧ (Event.wake party).Pays c (c.step (.wake party)) := by
  cases party with
  | renewal =>
      obtain ⟨deadline, seen, armed⟩ := h.rush.armed
      have early := undue deadline seen armed
      have behind : c.broker.version ≠ seen := by
        intro same
        simp only [Broker.ready, armed, same, ne_eq, not_true_eq_false, decide_false,
          Bool.false_or, decide_eq_true_eq] at ready
        omega
      have stale : c.broker.stale = 1 := by
        simp [Broker.stale, armed, behind]
      obtain ⟨rush, less, callers⟩ := h.rush.rearm stale
      have last : (c.broker.step c.clock .rearm).broker.lastRefresh = c.broker.lastRefresh :=
        congrArg Broker.Memory.lastRefresh (Broker.memory_step c.broker c.clock .rearm)
      have same : c.step (.wake .renewal) =
          { c with broker := (c.broker.step c.clock .rearm).broker } := by
        simp only [Crowd.step, Broker.onWake?, armed, behind, ne_eq, not_false_eq_true, if_true,
          input]
      rw [same]
      refine ⟨⟨rush, h.calls, fun id => ?_, ?_, ?_⟩, ?_⟩
      · rw [Broker.caller?, callers]
        exact h.asks id
      · rw [last]
        exact h.owed
      · rw [last]
        exact h.paid
      · simp only [Event.Pays, Event.acts, Crowd.rank, budget, if_true]
        omega
  | caller id =>
      obtain ⟨input, wake, stirs, asking, cost⟩ := wakes h.rush ready
      have asked : c.broker.caller? id ≠ none := by
        intro absent
        simp [Broker.ready, absent] at ready
      simp only [Crowd.step, wake]
      exact h.turn differs asked stirs asking cost

theorem Sound.land {party : Broker.Party} (h : c.Sound x y start) (differs : y.value ≠ x.value)
    (fetching : c.broker.phase party = .fetching) :
    (c.step (.land party (.ok y))).Sound x y start ∧
      (Event.land party (.ok y)).Pays c (c.step (.land party (.ok y))) := by
  cases party with
  | renewal =>
      obtain ⟨deadline, seen, armed⟩ := h.rush.armed
      simp [Broker.phase, armed, Broker.Renewal.phase] at fetching
  | caller id =>
      obtain ⟨origin, found⟩ := Broker.phase_fetching_caller.mp fetching
      cases h.rush.origins id _ found
      exact h.turn differs (by simp [found]) (.land found) rfl rfl

theorem Sound.wait {till : Nat} (h : c.Sound x y start)
    (idle : ∀ party ∈ c.broker.parties, c.broker.ready c.clock party = false) :
    (c.step (.wait till)).Sound x y start ∧ (Event.wait till).Pays c (c.step (.wait till)) := by
  have drained : c.broker.lock = none → c.broker.queue = [] := by
    intro free
    refine Decidable.not_not.mp fun standing => ?_
    obtain ⟨id, found, told, first⟩ := h.rush.head free standing
    have inside : .caller id ∈ c.broker.parties :=
      List.mem_cons_of_mem _ (List.mem_map.mpr ⟨_, List.mem_of_find?_eq_some found, rfl⟩)
    have asleep := idle _ inside
    simp [Broker.ready, found, told, first] at asleep
  refine ⟨⟨h.rush.later drained, h.calls, h.asks, h.owed, h.paid⟩, ?_⟩
  simp only [Event.Pays, Event.acts, Crowd.step, rank, budget, Bool.false_eq_true, if_false]
  omega

theorem Sound.step {event : Event} (h : c.Sound x y start) (differs : y.value ≠ x.value)
    (undue : c.Undue) (allowed : c.Allowed x y event) :
    (c.step event).Sound x y start ∧ event.Pays c (c.step event) := by
  cases allowed with
  | wait till onward idle => exact h.wait idle
  | call plan polls => exact h.call plan polls
  | accept id call attempt reply found sent success => exact h.accept found sent success
  | refuse id call attempt reply status found sent carries expired =>
      exact h.refuse differs found sent carries expired
  | wake party ready => exact h.wake differs undue ready
  | land party fetching => exact h.land differs fetching

/-- What each event keeps holds after a run, and the acts of a run are paid for by its calls. -/
theorem Sound.run {events : List Event} (h : c.Sound x y start) (differs : y.value ≠ x.value)
    (admitted : c.Admitted x y events) :
    (c.run events).Sound x y start ∧
      (events.filter Event.acts).length + (c.run events).rank + c.budget ≤
        c.rank + (c.run events).budget := by
  induction events generalizing c with
  | nil => exact ⟨h, by simp [Crowd.run]⟩
  | cons event rest ih =>
      obtain ⟨undue, allowed, later⟩ := admitted
      obtain ⟨sound, pays⟩ := h.step differs undue allowed
      obtain ⟨final, paid⟩ := ih sound later
      refine ⟨final, ?_⟩
      have same : c.run (event :: rest) = (c.step event).run rest := rfl
      rw [same, List.filter_cons]
      simp only [Event.Pays] at pays
      split
      · next acts =>
          simp only [acts, if_true, List.length_cons] at pays ⊢
          omega
      · next still =>
          rw [if_neg still] at pays
          omega

/-- While a call has not returned, something that it waits for is still to come. -/
theorem Sound.settled (h : c.Sound x y start) (done : ¬ c.Pending) :
    ∀ call ∈ c.calls, ∃ result, call.stage = .returned result := by
  intro call member
  cases h.calls call member with
  | first plan polls value request carries built => exact absurd (.reply _ member _ rfl) done
  | second plan polls old new builtOld builtNew => exact absurd (.reply _ member _ rfl) done
  | served | recovered | unsent | unsentAgain => exact ⟨_, rfl⟩
  | refused plan polls request built =>
      obtain ⟨id, found⟩ := List.mem_iff_getElem?.mp member
      obtain ⟨caller, asks⟩ :=
        Option.ne_none_iff_exists'.mp ((h.asks id).mpr ⟨_, found, rfl⟩)
      have phase := Broker.phase_caller asks
      cases wait : caller.wait with
      | pausing polls left due =>
          rw [wait] at phase
          exact absurd (.sleep id phase) done
      | fetching =>
          rw [wait] at phase
          exact absurd (.fetch _ phase) done
      | queued =>
          rw [wait] at phase
          have waiting := (h.rush.orderly.waits (.caller id)).mp phase
          cases lock : c.broker.lock with
          | some holder =>
              exact absurd (.fetch holder ((h.rush.orderly.holds holder).mpr lock)) done
          | none =>
              obtain ⟨head, first, told, ahead⟩ := h.rush.head lock (List.ne_nil_of_mem waiting)
              refine absurd (.ready (.caller head) ?_) done
              simp [Broker.ready, first, told, ahead]

/-- When all calls have returned, the counters say that there was one fetch for all that were
refused. -/
theorem Sound.counted (h : c.Sound x y start)
    (returned : ∀ call ∈ c.calls, ∃ result, call.stage = .returned result) :
    let fetched := if 0 < c.refusals then 1 else 0
    c.broker.counters.fetches = start.fetches + fetched ∧
      c.broker.counters.resolverPollHits + c.broker.counters.resolverFallThroughs =
        start.resolverPollHits + start.resolverFallThroughs + c.refusals ∧
      c.broker.counters.forcedRefreshes + start.debouncedRefreshes =
        start.forcedRefreshes + c.broker.counters.debouncedRefreshes + fetched := by
  have nobody : c.broker.callers = [] := by
    cases callers : c.broker.callers with
    | nil => rfl
    | cons caller rest =>
        have asks : c.broker.caller? caller.id ≠ none := by
          simp [Broker.caller?, callers]
        obtain ⟨call, found, resolving⟩ := (h.asks caller.id).mp asks
        obtain ⟨result, stage⟩ := returned call (List.mem_of_getElem? found)
        rw [stage] at resolving
        cases resolving
  have landed : c.broker.lastRefresh = none ↔ ¬ 0 < c.refusals := by
    refine ⟨fun never some => ?_, fun none => Decidable.not_not.mp (mt h.paid none)⟩
    obtain ⟨count, inside, positive⟩ := List.sum_pos_iff_exists_pos_nat.mp some
    obtain ⟨call, member, rfl⟩ := List.mem_map.mp inside
    have refused : call.refused = true := by
      cases refused : call.refused with
      | true => rfl
      | false => simp [refused] at positive
    obtain ⟨result, stage⟩ := returned call member
    have resolving := h.owed never call member refused
    rw [stage] at resolving
    cases resolving
  obtain ⟨fetches, looked, forced⟩ := h.rush.finished nobody
  intro fetched
  have spent : (if c.broker.lastRefresh = none then 0 else 1) = fetched := by
    simp only [fetched, landed]
    split <;> simp_all
  rw [spent] at fetches
  refine ⟨fetches, looked, ?_⟩
  omega

/-- However many calls are refused because of `x`, and in whatever order the tasks run, there is one
fetch for all of them. The broker is one that nobody uses, whose renewal sleeps, and on which no
refresh has landed. Every call sends at most two requests, a single one with `x` or `y`, of two the
first with `x` and the second with `y`, each made as its plan says; it returns with success unless
one of its requests cannot be built; no call waits for what never comes; and the calls do not go on
for ever. -/
theorem one_fetch_for_all (config : Config) (founded : Nat) (outcome : Except Error Credential)
    (inputs : List (Nat × Broker.Input)) (b : Broker)
    (reached : b = (Broker.create config founded outcome).after inputs) (clock : Nat)
    (x y : Credential) (events : List Event) (nobody : b.callers = [])
    (asleep : ∃ deadline seen, b.renewal = .armed deadline seen) (never : b.lastRefresh = none)
    (holds : b.store.current.outcome = .ok x) (window : 0 < config.debounceWindow.nanos)
    (differs : y.value ≠ x.value) (admitted : (opened clock b).Admitted x y events) :
    let c := (opened clock b).run events
    let fetched := if 0 < c.refusals then 1 else 0
    (∀ call ∈ c.calls,
      call.sent.length ≤ 2 ∧
      (∀ request, call.sent[1]? = some request → call.plan.request y.value = .ok request) ∧
      (∀ first, call.sent = [first] →
        call.plan.Makes x.value first ∨ call.plan.Makes y.value first) ∧
      (∀ first second, call.sent = [first, second] →
        call.plan.Makes x.value first ∧ call.plan.Makes y.value second) ∧
      ∀ result, call.stage = .returned result →
        (∃ reply, result = .ok reply ∧ call.plan.inspect reply = .ok (.done reply)) ∨
        ∃ error, result = .error error ∧
          (call.plan.request x.value = .error error ∨
            call.plan.request y.value = .error error)) ∧
    (¬ c.Pending → ∀ call ∈ c.calls, ∃ result, call.stage = .returned result) ∧
    (events.filter Event.acts).length ≤ (c.calls.map fun call => call.polls + 6).sum + 1 ∧
    ((∀ call ∈ c.calls, ∃ result, call.stage = .returned result) →
      c.broker.counters.fetches = b.counters.fetches + fetched ∧
      c.broker.counters.resolverPollHits + c.broker.counters.resolverFallThroughs =
        b.counters.resolverPollHits + b.counters.resolverFallThroughs + c.refusals ∧
      c.broker.counters.forcedRefreshes + b.counters.debouncedRefreshes =
        b.counters.forcedRefreshes + c.broker.counters.debouncedRefreshes + fetched) := by
  have orderly : b.Orderly := by
    rw [reached]
    exact (Broker.orderly_create config founded outcome).after inputs
  have same : b.config = config := by
    rw [reached]
    exact Broker.config_after _ inputs
  have begun : Sound x y b.counters (opened clock b) := by
    refine ⟨orderly.rush nobody asleep never holds (same ▸ window), by simp [opened], fun id => ?_,
      by simp [opened], fun landed => absurd never landed⟩
    simp [opened, Broker.caller?, nobody]
  obtain ⟨sound, paid⟩ := begun.run differs admitted
  intro c fetched
  refine ⟨fun call member => ?_, sound.settled, ?_, sound.counted⟩
  · refine ⟨?_, ?_, (sound.calls call member).made_once, (sound.calls call member).made_twice, ?_⟩
    · cases sound.calls call member <;> simp
    · cases sound.calls call member with
      | second plan polls old new builtOld builtNew => simp [builtNew]
      | recovered plan polls old new reply builtOld builtNew success => simp [builtNew]
      | first | refused | served | unsent | unsentAgain => simp
    · cases sound.calls call member with
      | first | refused | second => simp
      | served plan polls value request reply carries built success =>
          refine fun result stage => .inl ⟨reply, ?_, success⟩
          cases stage
          rfl
      | recovered plan polls old new reply builtOld builtNew success =>
          refine fun result stage => .inl ⟨reply, ?_, success⟩
          cases stage
          rfl
      | unsent plan polls value error carries failed =>
          refine fun result stage => .inr ⟨error, ?_, ?_⟩
          · cases stage
            rfl
          · cases carries with
            | inl old => exact .inl (old ▸ failed)
            | inr new => exact .inr (new ▸ failed)
      | unsentAgain plan polls old error builtOld failed =>
          refine fun result stage => .inr ⟨error, ?_, .inr failed⟩
          cases stage
          rfl
  · have idle := Broker.stale_le b
    have nothing : (opened clock b).rank ≤ 1 := by
      simpa [opened, rank, Broker.rank, Broker.weigh, nobody] using idle
    have empty : (opened clock b).budget = 0 := rfl
    have bound : (events.filter Event.acts).length ≤ ((opened clock b).run events).budget + 1 := by
      omega
    exact bound

end Runs

section Samples

open Url.PlainNames

def menu : Plan :=
  .sample ⟨"https://host/menu?access_token=", by decide, by decide⟩

def success : Http.Reply :=
  .sample "\x7b\"errcode\":0\x7d"

def refusal : Http.Reply :=
  .sample "\x7b\"errcode\":40001\x7d"

def early : Credential :=
  Broker.sample "first"

def late : Credential :=
  Broker.sample "second"

def founder : Broker :=
  .create .default 0 (.ok early)

/-- Two calls are refused. One falls through and fetches, the other rests between two looks, falls
through and lines up, and is served from the store when the fetch has landed. -/
def twoRefused : List Event :=
  [.call menu 2, .call menu 1, .reply 0 (.ok refusal), .reply 1 (.ok refusal), .wait 50000000,
    .wake (.caller 0), .land (.caller 1) (.ok late), .wake .renewal, .wake (.caller 0),
    .reply 0 (.ok success), .reply 1 (.ok success)]

theorem one_fetch_for_two :
    (opened 0 founder).Admitted early late twoRefused ∧
      ((opened 0 founder).run twoRefused).refusals = 2 ∧
      (∀ call ∈ ((opened 0 founder).run twoRefused).calls,
        ∃ result, call.stage = .returned result) ∧
      ((opened 0 founder).run twoRefused).broker.counters.fetches =
        founder.counters.fetches + 1 := by
  have admitted : (opened 0 founder).Admitted early late twoRefused :=
    admitted_of_admits (by decide +kernel)
  have refusals : ((opened 0 founder).run twoRefused).refusals = 2 := by
    decide +kernel
  have finished : ((opened 0 founder).run twoRefused).calls.all (·.finished) = true := by
    decide +kernel
  have returned : ∀ call ∈ ((opened 0 founder).run twoRefused).calls,
      ∃ result, call.stage = .returned result :=
    fun call member => call.returned (List.all_eq_true.mp finished call member)
  obtain ⟨_, _, _, counted⟩ := one_fetch_for_all .default 0 (.ok early) [] founder rfl 0 early late
    twoRefused rfl ⟨_, _, rfl⟩ rfl rfl (by decide) (by decide) admitted
  have fetches := (counted returned).1
  rw [refusals] at fetches
  exact ⟨admitted, refusals, returned, fetches⟩

def mail : Plan :=
  .sample ⟨"mailto:someone?access_token=", by decide, by decide⟩

/-- Not every call succeeds: a template may be a URL that no request can be made of. Such a call
sends nothing and returns the fault. -/
theorem mail_call_fails :
    founder.callers = [] ∧ (∃ deadline seen, founder.renewal = .armed deadline seen) ∧
      founder.lastRefresh = none ∧ founder.store.current.outcome = .ok early ∧
      0 < founder.config.debounceWindow.nanos ∧ late.value ≠ early.value ∧
      (opened 0 founder).Admitted early late [.call mail 3] ∧
      ((opened 0 founder).run [.call mail 3]).calls =
        [⟨mail, 3, [], false, .returned (.error (.requestTarget .invalidFormat))⟩] := by
  have admitted : (opened 0 founder).Admitted early late [.call mail 3] :=
    admitted_of_admits (by decide +kernel)
  refine ⟨rfl, ⟨_, _, rfl⟩, rfl, rfl, by decide, by decide, admitted, ?_⟩
  rfl

end Samples

end Crowd

end Bearer
