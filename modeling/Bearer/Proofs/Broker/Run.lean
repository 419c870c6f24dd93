import Bearer.Broker.Step

/-!
Runs of a broker. An input may come at any moment and in any order, so what holds after every
sequence of inputs holds however the parties are scheduled.
-/
namespace Bearer.Broker

/-- A credential to be used in fixed runs. -/
def sample (value : String) : Credential :=
  ⟨⟨value⟩, ⟨0, 0, by decide, by decide⟩, ⟨0, 0, by decide, by decide⟩⟩

def after (b : Broker) (inputs : List (Nat × Input)) : Broker :=
  inputs.foldl (fun b timed => (b.step timed.1 timed.2).broker) b

@[simp] theorem after_nil (b : Broker) : b.after [] = b := rfl

@[simp] theorem after_cons (b : Broker) (timed : Nat × Input) (rest : List (Nat × Input)) :
    b.after (timed :: rest) = (b.step timed.1 timed.2).broker.after rest := rfl

theorem after_append (b : Broker) (earlier later : List (Nat × Input)) :
    b.after (earlier ++ later) = (b.after earlier).after later :=
  List.foldl_append ..

theorem after_induction {P : Broker → Prop}
    (keeps : ∀ b now input, P b → P (b.step now input).broker)
    {b : Broker} (h : P b) (inputs : List (Nat × Input)) : P (b.after inputs) := by
  induction inputs generalizing b with
  | nil => exact h
  | cons timed rest ih => exact ih (keeps b timed.1 timed.2 h)

end Bearer.Broker
