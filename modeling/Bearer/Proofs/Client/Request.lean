import Mathlib
import Bearer.Client.Call
import Bearer.Proofs.Http.Target

/-!
The request that a plan makes for a value: the method, the body and the content type are the plan's
own, and what it asks for is the template with the value in its slot. Where a plan makes none, the
completed template is no URL, or a URL that no request can ask for.
-/
namespace Bearer

variable [Url.Idna]

section Targets

variable {template : Template} {plan : Plan} {credential : String}

/-- A request is built from the completed URL, whose text it sends. -/
theorem Template.target_of_request {request : Http.Request}
    (built : plan.request credential = .ok request) :
    ∃ url, plan.template.complete credential = .ok url ∧
      Http.targetOf url.text = .ok request.target ∧
      request = ⟨plan.method, request.target, plan.body.map fun _ => Http.jsonContentType,
        plan.body.getD []⟩ := by
  obtain ⟨url, completed, built⟩ := Json.bind_eq_ok.mp built
  refine ⟨url, completed, ?_⟩
  rw [Http.Request.build] at built
  split at built
  · cases built
  · next target sent =>
      cases built
      exact ⟨sent, rfl⟩

theorem Template.parse_of_complete {url : Url}
    (completed : template.complete credential = .ok url) :
    Url.parse (template.completedText credential) = .ok url :=
  Json.mapError_eq_ok.mp completed

end Targets

/-- A request as a plan makes it for a value. -/
structure Plan.Makes (plan : Plan) (value : String) (request : Http.Request) : Prop where
  method : request.method = plan.method
  body : request.body = plan.body.getD []
  contentType : request.contentType = plan.body.map fun _ => Http.jsonContentType
  target : ∃ url, plan.template.complete value = .ok url ∧
    request.target = (Http.sentForm url).text ∧
    (url.isSpecial = true → request.target = { url with fragment := none }.text)

/-- Why a plan makes no request for a value. -/
inductive Plan.Fails (plan : Plan) (value : String) : Error → Prop where
  | url (fault : Url.Fault)
      (unread : Url.parse (plan.template.completedText value) = .error fault) :
      Fails plan value (.invalidUrl (plan.template.completedText value) fault)
  | target (url : Url) (fault : Http.TargetFault)
      (read : Url.parse (plan.template.completedText value) = .ok url)
      (refused : Http.targetOf url.text = .error fault) :
      Fails plan value (.requestTarget fault)

section Made

variable {plan : Plan} {value : String}

theorem Plan.makes_of_request {request : Http.Request}
    (built : plan.request value = .ok request) : plan.Makes value request := by
  obtain ⟨url, completed, sent, parts⟩ := Template.target_of_request built
  have read := Template.parse_of_complete completed
  have target := Http.target_eq read sent
  refine ⟨by rw [parts], by rw [parts], by rw [parts], url, completed, target, fun special => ?_⟩
  rw [target, Http.sentForm_special read special]

theorem Plan.fails_of_request {error : Error} (failed : plan.request value = .error error) :
    plan.Fails value error := by
  rw [Plan.request, Template.complete] at failed
  cases read : Url.parse (plan.template.completedText value) with
  | error fault =>
      rw [read] at failed
      cases failed
      exact .url fault read
  | ok url =>
      have sent : Http.Request.build plan.method url plan.body = .error error := by
        rwa [read] at failed
      rw [Http.Request.build] at sent
      split at sent
      · next fault refused =>
          cases sent
          exact .target url fault read refused
      · cases sent

end Made

end Bearer
