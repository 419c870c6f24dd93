import Bearer.Scenario.World

/-!
How the world moves. `advance` is one move of one task, `settle` runs a task until it waits or is
done, and `await` runs all tasks until one of them is done.
-/
namespace Bearer.Scenario.World

variable [Url.Idna]

/-- One move of a task: the frames that wait after it, and what the task does then. -/
abbrev Moved := List Frame × Job × World

/-- A caller of a broker goes on as the broker says. -/
def follow (w : World) (frames : List Frame) (broker id : Nat) : Broker.Next → Moved
  | .answer snapshot => (frames, .give (.credential snapshot.answer), w)
  | .sleep due => (.caller broker :: frames, .sleep (tickOf due), w)
  | .queue | .nothing => (.caller broker :: frames, .wait, w)
  | .fetch =>
    (.fetcher broker (.caller id) :: .caller broker :: frames, .fetch broker, w)

/-- So does the task that renews. -/
def followRenewal (w : World) (frames : List Frame) (broker : Nat) : Broker.Next → Moved
  | .sleep due => (.renewal broker :: frames, .sleep (tickOf due), w)
  | .queue | .nothing | .answer _ => (.renewal broker :: frames, .wait, w)
  | .fetch => (.fetcher broker .renewal :: .renewal broker :: frames, .fetch broker, w)

def inputCaller (w : World) (frames : List Frame) (broker id : Nat) (event : Broker.Input) :
    Moved :=
  let (next, w) := w.input frames broker event
  w.follow frames broker id next

def inputRenewal (w : World) (frames : List Frame) (broker : Nat) (event : Broker.Input) : Moved :=
  let (next, w) := w.input frames broker event
  w.followRenewal frames broker next

/-- Asks the token service of a script. -/
def askScript (w : World) (tokens : TokenScript) (call : TokenCall) :
    Except Error Credential × World :=
  let (answer, tokens) := tokens.take call
  (answer, { w with service := .script tokens, calls := call :: w.calls })

def clientCurrent (w : World) : Except Error Credential × World :=
  match w.service with
  | .script tokens => w.askScript tokens .current
  | .broker number =>
    match w.brokers[number]? with
    | some b => (b.current, w)
    | none => (.error (.httpStatus 599), w)

def clientRefresh (w : World) (frames : List Frame) : Moved :=
  match w.service with
  | .script tokens =>
    let (answer, w) := w.askScript tokens .refresh
    (frames, .give (.credential answer), w)
  | .broker number => (frames, .refresh number, w)

def clientResolve (w : World) (frames : List Frame) (failed : String) : Moved :=
  match w.service with
  | .script tokens =>
    let (answer, w) := w.askScript tokens (.resolve failed)
    (frames, .give (.credential answer), w)
  | .broker number => (frames, .resolve number failed, w)

/-- Makes the next move of a call. -/
def move (w : World) (frames : List Frame) (plan : Plan) (next : Move) : Moved :=
  let w := { w.observe frames next.observed with client := w.client.after next }
  match next with
  | .send request attempt => (.attempt plan attempt :: frames, .send request, w)
  | .resolve failed _ => w.clientResolve (.retry plan :: frames) failed
  | .finish result => (frames, .give (.reply result), w)

/-- Gives what a broker shows, where there is the broker. -/
def giveOf (w : World) (broker : Nat) (shown : Broker → Except Error Credential) : Job :=
  match w.brokers[broker]? with
  | some b => .give (.credential (shown b))
  | none => .give .elapsed

def startOp (w : World) (frames : List Frame) : Op → Moved
  | .sleep ticks => (frames, .sleep (w.clock + ticks), w)
  | .found config =>
    (.founder config :: frames, .fetch w.brokers.length,
      w.observe frames [.opened .eager none])
  | .current broker => (frames, w.giveOf broker Broker.current, w)
  | .refresh broker => (frames, .refresh broker, w)
  | .resolve broker failed => (frames, .resolve broker failed, w)
  | .readStore broker => (frames, w.giveOf broker (·.store.current.outcome), w)
  | .writeStore broker outcome =>
    (frames, .give (.credential outcome), (w.input frames broker (.write outcome)).2)
  | .fetch source => (frames, .fetch source, w)
  | .pushOutcome outcome =>
    (frames, .give .pushed, { w with script.queue := w.script.queue ++ [outcome] })
  | .setFailing failing => (frames, .give .changed, { w with script.failing := failing })
  | .pushReply planned =>
    (frames, .give .pushed, { w with wire.queue := w.wire.queue ++ [planned] })
  | .pushReject token =>
    (frames, .give .pushed, { w with wire.rejected := w.wire.rejected ++ [token] })
  | .clientCurrent =>
    let (answer, w) := w.clientCurrent
    (frames, .give (.credential answer), w)
  | .clientRefresh => w.clientRefresh frames
  | .call (.ok plan) => (frames, .call plan, w)
  | .call (.error error) => (frames, .give (.reply (.error error)), w)
  | .read (.ok plan) reader => (.read reader :: frames, .call plan, w)
  | .read (.error error) _ => (frames, .give (.json (.error error)), w)

/-- Starts a fetch from the source with this number. -/
def startFetch (w : World) (frames : List Frame) (number : Nat) : Moved :=
  match w.sources[number]? with
  | none => (frames, .wait, w)
  | some .script =>
    let script := w.script.begin
    (.script script.begun :: frames, .sleep (w.clock + script.delay),
      { w with script, fetches := w.clock :: w.fetches })
  | some (.issuerToken source) =>
    let w := w.observe frames (Source.began .issuerToken)
    match source.request with
    | .ok request => (.issuerToken source :: frames, .send request, w)
    | .error error => (.issuerToken source :: frames, .give (.reply (.error error)), w)
  | some (.ticket plan) =>
    (.ticket :: frames, .call plan, w.observe frames (Source.began .ticket))

def startCall (w : World) (frames : List Frame) (plan : Plan) : Moved :=
  let w := { w.observe frames Plan.began with client := w.client.call }
  let (current, w) := w.clientCurrent
  w.move frames plan (plan.start current)

def send (w : World) (frames : List Frame) (request : Http.Request) : Moved :=
  let (planned, wire) := w.wire.answer request
  (.delay planned.result :: frames, .sleep (w.clock + planned.delay),
    { w with wire, requests := request :: w.requests })

/-- The first fetch of a broker is over: the broker is there, and its renewal begins. -/
def founded (w : World) (frames : List Frame) (config : Config)
    (outcome : Except Error Credential) : Moved :=
  let number := w.brokers.length
  let (renewer, w) := w.spawn [.renewal number]
  (frames, .give .elapsed,
    { w with
      brokers := w.brokers ++ [Broker.create config w.moment outcome]
      renewers := w.renewers ++ [renewer] }.observe frames (Broker.reported config outcome))

/-- A source has its outcome. -/
def fetched (w : World) (frames : List Frame) (outcome : Except Error Credential) : Moved :=
  (frames, .give (.credential outcome), w.observe frames (Source.ended outcome))

/-- A frame that was woken goes on. -/
def wakeUp (w : World) (id : Nat) (frame : Frame) (frames : List Frame) : Moved :=
  match frame with
  | .begin op => (frames, .start op, w)
  | .delay result => (frames, .give (.reply result), w)
  | .script number =>
    let (outcome, script) := w.script.finish number
    (frames, .give (.credential outcome), { w with script })
  | .caller broker =>
    match (w.brokers[broker]?).bind (·.onWake? w.moment (.caller id)) with
    | some event => w.inputCaller frames broker id event
    | none => (frame :: frames, .wait, w)
  | .renewal broker =>
    match w.brokers[broker]? with
    | none => (frame :: frames, .wait, w)
    | some b =>
      match b.onWake? w.moment .renewal, b.renewalDeadline? with
      | some event, _ => w.inputRenewal frames broker event
      | none, some deadline => (frame :: frames, .sleep (tickOf deadline), w)
      | none, none => (frame :: frames, .wait, w)
  | _ => (frame :: frames, .wait, w)

/-- A frame takes the answer that it waited for; an answer of another kind leaves it waiting. -/
def take (w : World) (id : Nat) (frame : Frame) (frames : List Frame) (answer : Answer) : Moved :=
  match frame, answer with
  | _, .elapsed => w.wakeUp id frame frames
  | .fetcher broker (.caller caller), .credential outcome =>
    w.inputCaller (frames.drop 1) broker caller (.land (.caller caller) outcome)
  | .fetcher broker .renewal, .credential outcome =>
    w.inputRenewal (frames.drop 1) broker (.land .renewal outcome)
  | .founder config, .credential outcome => w.founded frames config outcome
  | .retry plan, .credential outcome => w.move frames plan (plan.resolved outcome)
  | .issuerToken source, .reply result => w.fetched frames (source.receive epoch result)
  | .ticket, .reply result => w.fetched frames (Source.Ticket.receive epoch result)
  | .attempt plan attempt, .reply result => w.move frames plan (plan.received attempt result)
  | .read reader, .reply result =>
    (frames, .give (.json (result.bind (Http.Reply.decode reader))), w)
  | _, _ => (frame :: frames, .wait, w)

/-- One move of a task whose frames are not done. A sleep that is over at once does not wait. -/
def advance (w : World) (id : Nat) (frames : List Frame) : Job → Moved
  | .start op => w.startOp frames op
  | .refresh broker => w.inputCaller frames broker id (.force id)
  | .resolve broker failed =>
    let polls := ((w.brokers[broker]?).map (·.config.pollJitter.least)).getD 1
    w.inputCaller frames broker id (.resolve id failed polls)
  | .fetch source => w.startFetch frames source
  | .call plan => w.startCall frames plan
  | .send request => w.send frames request
  | .sleep due =>
    if due ≤ w.clock then (frames, .give .elapsed, w) else (frames, .wait, w.setTimer id due)
  | .give answer =>
    match frames with
    | frame :: rest => w.take id frame rest answer
    | [] => (frames, .give answer, w)
  | .wait => (frames, .wait, w)

/-- Runs a task until it waits or has nothing left to do. -/
def settle (w : World) (id : Nat) (frames : List Frame) (job : Job) : Nat → World
  | 0 => w.suspend id frames
  | fuel + 1 =>
    match frames, job with
    | [], .give answer => w.finish id answer
    | frames, .wait => w.suspend id frames
    | frames, job =>
      let (frames, job, w) := w.advance id frames job
      settle w id frames job fuel

/-- Enough moves for any task to come to a wait. -/
def patience : Nat := 1000000000

/-- Runs a task that was woken. -/
def resume (w : World) (id : Nat) : World :=
  match w.tasks.find? (·.id = id) with
  | none => w
  | some task =>
    { w with tasks := w.tasks.filter (·.id ≠ id) }.settle id task.frames (.give .elapsed) patience

/-- The moment at which the next timer fires. -/
def nextDue? (w : World) : Option Nat :=
  (w.timers.map Timer.due).min?

/-- Moves the clock to the next timer, and wakes all whose time it is in the order in which they
went to sleep. -/
def jump (w : World) (due : Nat) : World :=
  let (fired, timers) := w.timers.partition (·.due ≤ due)
  fired.foldl (fun w timer => w.wake timer.task) { w with clock := due, timers }

/-- Runs tasks until all of these are done. -/
def await (w : World) (ids : List Nat) : Nat → World
  | 0 => w
  | fuel + 1 =>
    if ids.all fun id => w.finished.any (·.task = id) then w
    else
      match w.ready with
      | id :: rest => await ({ w with ready := rest }.resume id) ids fuel
      | [] =>
        match w.nextDue? with
        | some due => await (w.jump due) ids fuel
        | none => w

/-- Runs tasks until none is ready; the clock stands still. -/
def drain (w : World) : Nat → World
  | 0 => w
  | fuel + 1 =>
    match w.ready with
    | [] => w
    | id :: rest => drain ({ w with ready := rest }.resume id) fuel

/-- What a finished task answered, and when. -/
def result? (w : World) (id : Nat) : Option Finished :=
  w.finished.find? (·.task = id)

/-- Does a piece of work at once, and then whatever it takes until it is done. -/
def perform (w : World) (op : Op) : Answer × World :=
  let id := w.spawned
  let w := { w with spawned := id + 1 }.settle id [] (.start op) patience
  let w := w.await [id] patience
  (((w.result? id).map Finished.answer).getD .elapsed, { w with finished := [] })

/-- Starts each piece of work in a task of its own, after so many ticks, and waits for all. Who waits
for other tasks goes on after the tasks that are ready by then, so what the last piece of work sets
free still runs. -/
def performAll (w : World) (ops : List (Nat × Op)) : List (Answer × Nat) × World :=
  let (ids, w) := ops.foldl
    (fun (ids, w) (ticks, op) =>
      let (id, w) := w.spawn (if ticks = 0 then [.begin op] else [.begin (.sleep ticks), .begin op])
      (ids ++ [id], w))
    ([], w)
  let w := (w.await ids patience).drain patience
  (ids.map fun id =>
      match w.result? id with
      | some done => (done.answer, done.tick)
      | none => (.elapsed, w.clock),
    { w with finished := [] })

end Bearer.Scenario.World
