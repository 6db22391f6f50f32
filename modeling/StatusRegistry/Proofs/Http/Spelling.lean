import StatusRegistry.Proofs.Http.Slots
import StatusRegistry.Proofs.Http.Traces

/-!
# One identifier, many spellings

A request comes to a program on its way through the service, and the program is chosen by the
identifier that the path spells and not by its spelling. So requests that differ in spellings alone
are limited alike, run the same program, and get the same response. Between the calls of a request
other requests go on; their interleaving is not affected either.
-/

namespace StatusRegistry.Http

open Target (slash)

/-- Two requests are the same, or they differ only in how a segment of the path spells an
identifier. A target that is too long is not looked at, so neither is. -/
inductive Respelled : Request → Request → Prop where
  | same {r : Request} : Respelled r r
  | segment {r : Request} {slot : Slot} {id : Uuid} {name other : List UInt8}
      (one : Spells id name) (two : Spells id other) (target : r.target = slot.fill name)
      (short : (slot.fill name).length ≤ Target.maxLength)
      (short' : (slot.fill other).length ≤ Target.maxLength) :
      Respelled r { r with target := slot.fill other }

namespace ServerState

/-- Passes a request for a resource through the limiter of its group, to the program that answers
it. -/
def enterLimited (s : ServerState) (service : Service) (r : Request) (query : List UInt8)
    (resource : Resource) : ServerState × Program Response :=
  let operation := resource.operation? r.method
  let isChange := (operation.map Operation.isChange).getD false
  let refused := Response.withAllowed resource operation.isSome
  match r.client? service.behindProxy with
  | none => (s, .done (refused noClient))
  | some client =>
    match s.accept isChange client with
    | .error wait => (s, .done (refused (tooMany wait)))
    | .ok s =>
      match operation with
      | none => (s, .done resource.notAllowed)
      | some operation =>
        (s, if isChange then authorized service.registry service.secret r query operation
          else perform service.registry r query none operation)

/-- Passes a request for a resource to the program that answers it. Health is not limited. -/
def enterResource (s : ServerState) (service : Service) (r : Request) (query : List UInt8) :
    Resource → ServerState × Program Response
  | .health =>
    match Resource.health.operation? r.method with
    | some operation => (s, perform service.registry r query none operation)
    | none => (s, .done Resource.health.notAllowed)
  | resource => s.enterLimited service r query resource

/-- Passes a request with the given query and segments to the program that answers it. -/
def enterPath (s : ServerState) (service : Service) (r : Request) :
    List UInt8 × Option (List (List UInt8)) → ServerState × Program Response
  | (query, path?) =>
    match path?.bind Resource.ofPath with
    | none => (s, .done notFound)
    | some resource => s.enterResource service r query resource

/-- Passes a request to the program that answers it, if its target can be read. -/
def enter? (s : ServerState) (service : Service) (r : Request) :
    Option (ServerState × Program Response) :=
  ((Target.parse? r.target).map Target.parts).map (s.enterPath service r)

/-- Behind the limit a request is answered by the program that it comes to. -/
theorem serveLimited_eq (s : ServerState) (service : Service) (r : Request) (target : Target)
    (resource : Resource) :
    s.serveLimited service r target resource =
      (s.enterLimited service r target.query resource).1.runProgram
        (s.enterLimited service r target.query resource).2 := by
  unfold serveLimited enterLimited
  dsimp only
  cases r.client? service.behindProxy with
  | none => rfl
  | some client =>
    dsimp only
    cases s.accept _ client with
    | error wait => rfl
    | ok after =>
      dsimp only
      cases resource.operation? r.method <;> rfl

/-- At a resource a request is answered by the program that it comes to. -/
theorem serveResource_eq (s : ServerState) (service : Service) (r : Request) (target : Target)
    (resource : Resource) :
    s.serveResource service r target resource =
      (s.enterResource service r target.query resource).1.runProgram
        (s.enterResource service r target.query resource).2 := by
  cases resource with
  | health =>
    unfold serveResource enterResource
    dsimp only
    cases Resource.health.operation? r.method <;> rfl
  | _ => exact s.serveLimited_eq service r target _

/-- A request is answered by the program that it comes to, run in the service that it has entered. -/
theorem serve_eq (s : ServerState) (service : Service) (r : Request) :
    s.serve service r = (s.enter? service r).map fun (entered, p) =>
      let served := entered.runProgram p
      { served with response := served.response.forMethod r.method } := by
  rw [serve, enter?, Option.map_map, Option.map_map]
  congr 1
  funext target
  simp only [serveTarget, Function.comp_apply, Target.parts, enterPath]
  cases target.normalized.segments?.bind Resource.ofPath with
  | none => rfl
  | some resource =>
    dsimp only
    rw [serveResource_eq]

end ServerState

/-- A spelling is no name of a resource. -/
theorem Spells.ne_segment {id : Uuid} {name : List UInt8} (spells : Spells id name)
    (word : String) (short : (segment word).length < 32) : name ≠ segment word := by
  rintro rfl
  exact absurd spells.length_le (Nat.not_le_of_lt short)

/-- A path with a spelling in it names nothing, whatever it spells, or it names the item that the
spelling stands for. -/
theorem ofPath_spelled (earlier later : List (List UInt8)) :
    (∀ {id name}, Spells id name → Resource.ofPath (earlier ++ name :: later) = none) ∨
    ∀ {id name}, Spells id name →
      Resource.ofPath (earlier ++ name :: later) = some (.item name) := by
  rcases earlier with _ | ⟨a, _ | ⟨b, _ | ⟨c, _ | ⟨d, earlier⟩⟩⟩⟩
  · refine .inl fun {id name} spells => ?_
    have health := spells.ne_segment "health" (by decide)
    have api := spells.ne_segment "api" (by decide)
    cases later <;> simp [Resource.ofPath, health, api]
  · refine .inl fun {id name} spells => ?_
    have version := spells.ne_segment "v1" (by decide)
    simp [Resource.ofPath, version]
  · refine .inl fun {id name} spells => ?_
    have root := spells.ne_segment "status" (by decide)
    rcases later with _ | ⟨c, _ | ⟨d, later⟩⟩ <;> simp [Resource.ofPath, Resource.ofSegments, root]
  · cases later with
    | nil =>
      by_cases path : a = segment "api" ∧ b = segment "v1" ∧ c = segment "status"
      · obtain ⟨rfl, rfl, rfl⟩ := path
        refine .inr fun {id name} spells => ?_
        have search := spells.ne_segment "search" (by decide)
        exact (ofPath_statusPath [name]).trans (by
          simp [Resource.ofSegments, spells.ne_nil, search])
      · refine .inl fun {id name} spells => ?_
        simp only [Resource.ofPath, Resource.ofSegments, List.cons_append, List.nil_append,
          List.isEmpty_cons, Bool.and_false, Bool.false_eq_true, if_false, ite_eq_right_iff,
          Bool.and_eq_true, decide_eq_true_eq, Bool.or_eq_true]
        rintro ⟨api, version⟩
        by_cases root : c = segment "status"
        · exact absurd ⟨api, version, root⟩ path
        · rw [if_pos (.inl root)]
    | cons => exact .inl fun {id name} spells => by simp [Resource.ofPath, Resource.ofSegments]
  · refine .inl fun {id name} spells => ?_
    cases earlier <;> simp [Resource.ofPath, Resource.ofSegments]

variable {service : Service} {s : ServerState} {r : Request} {id : Uuid}
  {name other target : List UInt8}

/-- Spellings of one identifier are read alike. -/
theorem readId_eq (one : Spells id name) (two : Spells id other) : readId name = readId other :=
  (readId_eq_ok_iff.mpr one).trans (readId_eq_ok_iff.mpr two).symm

/-- Two operations are the same but for the segment that names their item. -/
inductive Operation.IsRenamed (name other : List UInt8) : Operation → Operation → Prop where
  | get : IsRenamed name other (.get name) (.get other)
  | update : IsRenamed name other (.update name) (.update other)
  | delete : IsRenamed name other (.delete name) (.delete other)

/-- Items answer the same methods. -/
theorem operation?_item (name other : List UInt8) (method : Method) :
    ((Resource.item name).operation? method = none ∧
      (Resource.item other).operation? method = none) ∨
    ∃ operation operation', (Resource.item name).operation? method = some operation ∧
      (Resource.item other).operation? method = some operation' ∧
      Operation.IsRenamed name other operation operation' := by
  cases method with
  | get => exact .inr ⟨_, _, rfl, rfl, .get⟩
  | head => exact .inr ⟨_, _, rfl, rfl, .get⟩
  | put => exact .inr ⟨_, _, rfl, rfl, .update⟩
  | delete => exact .inr ⟨_, _, rfl, rfl, .delete⟩
  | _ => exact .inl ⟨rfl, rfl⟩

variable {operation operation' : Operation}

/-- What is done for an item depends only on the identifier that its segment is read as. -/
theorem Operation.IsRenamed.perform_eq (renamed : IsRenamed name other operation operation')
    (same : readId name = readId other) (target : List UInt8) (registry : Registry)
    (query : List UInt8) (caller : Option Caller) :
    perform registry r query caller operation =
      perform registry { r with target := target } query caller operation' := by
  cases renamed with
  | get => simp only [perform, Http.get, same]
  | update =>
    simp only [perform, Http.update, same]
    rfl
  | delete => simp only [perform, Http.delete, same]

/-- What is done for an item behind the lookup of a token depends only on that identifier. -/
theorem Operation.IsRenamed.authorized_eq (renamed : IsRenamed name other operation operation')
    (same : readId name = readId other) (target : List UInt8) (registry : Registry)
    (secret : String) (query : List UInt8) :
    authorized registry secret r query operation =
      authorized registry secret { r with target := target } query operation' := by
  have token : bearer? { r with target := target } = bearer? r := rfl
  rw [Http.authorized_eq, Http.authorized_eq, token]
  simp only [renamed.perform_eq same target]

/-- A request for an item comes to the same program however the item is spelled. -/
theorem enterLimited_spelled (one : Spells id name) (two : Spells id other) (query : List UInt8) :
    s.enterLimited service r query (.item name) =
      s.enterLimited service { r with target := target } query (.item other) := by
  have same := readId_eq one two
  have client : ({ r with target := target } : Request).client? service.behindProxy =
      r.client? service.behindProxy := rfl
  unfold ServerState.enterLimited
  dsimp only
  rw [client]
  obtain ⟨unanswered, unanswered'⟩ | ⟨operation, operation', answered, answered', renamed⟩ :=
    operation?_item name other r.method
  · rw [unanswered, unanswered']
    rfl
  · have change : operation.isChange = operation'.isChange := by cases renamed <;> rfl
    rw [answered, answered']
    simp only [Option.map_some, Option.getD_some, change, Option.isSome_some,
      renamed.perform_eq same target, renamed.authorized_eq same target]
    rfl

/-- A request comes to the same program however an identifier in its path is spelled. -/
theorem Respelled.enter?_eq {r' : Request} (respelled : Respelled r r') :
    s.enter? service r = s.enter? service r' := by
  cases respelled with
  | same => rfl
  | @segment slot id name other one two target short short' =>
    obtain ⟨query?, earlier, later, reads⟩ := slot.read_fill
    unfold ServerState.enter?
    rw [target, reads one short]
    show _ = Option.map _ ((Target.parse? (slot.fill other)).map Target.parts)
    rw [reads two short', Option.map_map, Option.map_map]
    congr 1
    funext query
    simp only [Function.comp_apply, ServerState.enterPath, Option.bind_some]
    obtain nothing | item := ofPath_spelled earlier later
    · rw [nothing one, nothing two]
    · rw [item one, item two]
      exact enterLimited_spelled one two query

/-- Differing in spellings goes both ways. -/
theorem Respelled.symm {r' : Request} (respelled : Respelled r r') : Respelled r' r := by
  cases respelled with
  | same => exact .same
  | @segment slot id name other one two target short short' =>
    have back : Respelled { r with target := slot.fill other } { r with target := slot.fill name } :=
      .segment two one rfl short' short
    rw [← target] at back
    exact back

/-- Requests that differ in a spelling have one method. -/
theorem Respelled.method_eq {r' : Request} (respelled : Respelled r r') :
    r.method = r'.method := by
  cases respelled <;> rfl

/-- A request is answered alike however an identifier in its path is spelled. -/
theorem Respelled.serve_eq {r' : Request} (respelled : Respelled r r') :
    s.serve service r = s.serve service r' := by
  rw [ServerState.serve_eq, ServerState.serve_eq, respelled.enter?_eq, respelled.method_eq]

/-- A service and the requests that it has let in, under tickets that are given out in order. Of a
request its method is kept, and what is left of its program. -/
structure Flow where
  state : ServerState
  pending : Nat → Option (Method × Program Response)
  arrived : Nat

namespace Flow

/-- One thing that happens to a service. -/
inductive Act where
  | arrive (ticket : Nat) (request : Request)
  | exchange (ticket : Nat) (e : Exchange)
  | respond (ticket : Nat) (response : Response)
  | drop (ticket : Nat)
  | drift

/-- The flow with another entry under a ticket. -/
def enter (t : Flow) (k : Nat) (entry : Option (Method × Program Response)) : Flow :=
  { t with pending := fun j => if j = k then entry else t.pending j }

/-- What an act does to the flow. A request may run out of time, or be abandoned, wherever it
stands. -/
inductive Step (service : Service) (around : Surroundings) : Flow → Act → Flow → Prop where
  | arrive {t : Flow} {r : Request} {entered : ServerState} {p : Program Response}
      (enters : t.state.enter? service r = some (entered, p)) :
      Step service around t (.arrive t.arrived r)
        { t.enter t.arrived (some (r.method, p)) with
          state := entered
          arrived := t.arrived + 1 }
  | exchange {t : Flow} {k : Nat} {method : Method} {c : Call}
      {next : c.Answer → Program Response} {answer : c.Answer} {after : World}
      (waiting : t.pending k = some (method, .call c next))
      (answered : around.answers t.state.world c answer after) :
      Step service around t (.exchange k ⟨c, answer⟩)
        { t.enter k (some (method, next answer)) with state := { t.state with world := after } }
  | respond {t : Flow} {k : Nat} {method : Method} {response : Response}
      (ended : t.pending k = some (method, .done response)) :
      Step service around t (.respond k (response.forMethod method)) (t.enter k none)
  | expire {t : Flow} {k : Nat} {method : Method} {p : Program Response}
      (served : t.pending k = some (method, p)) :
      Step service around t (.respond k (timedOut.forMethod method)) (t.enter k none)
  | drop {t : Flow} {k : Nat} {method : Method} {p : Program Response}
      (served : t.pending k = some (method, p)) :
      Step service around t (.drop k) (t.enter k none)
  | drift {t : Flow} {after : World} (drifted : around.drifts t.state.world after) :
      Step service around t .drift { t with state := { t.state with world := after } }

/-- A run from one state of the flow to another. -/
inductive Runs (service : Service) (around : Surroundings) : Flow → List Act → Flow → Prop where
  | refl {t : Flow} : Runs service around t [] t
  | step {t middle after : Flow} {act : Act} {acts : List Act}
      (first : Step service around t act middle) (rest : Runs service around middle acts after) :
      Runs service around t (act :: acts) after

/-- Two acts are the same, or the arrivals of requests that differ in a spelling. -/
inductive Act.Respelled : Act → Act → Prop where
  | same {act : Act} : Respelled act act
  | arrive {k : Nat} {r r' : Request} (respelled : Http.Respelled r r') :
      Respelled (.arrive k r) (.arrive k r')

/-- Differing in a spelling goes both ways. -/
theorem Act.Respelled.symm {act act' : Act} (respelled : act.Respelled act') :
    act'.Respelled act := by
  cases respelled with
  | same => exact .same
  | arrive respelled => exact .arrive respelled.symm

variable {around : Surroundings} {t after : Flow} {act act' : Act} {acts acts' : List Act}

/-- An act does the same however an identifier is spelled in it. -/
theorem Step.respelled (step : Step service around t act after) (respelled : act.Respelled act') :
    Step service around t act' after := by
  cases respelled with
  | same => exact step
  | arrive respelled =>
    cases step with
    | arrive enters =>
      rw [respelled.enter?_eq] at enters
      rw [respelled.method_eq]
      exact .arrive enters

/-- A run is a run however identifiers are spelled in it. -/
theorem Runs.respelled (run : Runs service around t acts after)
    (respelled : List.Forall₂ Act.Respelled acts acts') : Runs service around t acts' after := by
  induction run generalizing acts' with
  | refl =>
    cases respelled
    exact .refl
  | step first _ inductionHypothesis =>
    cases respelled with
    | cons now later => exact .step (first.respelled now) (inductionHypothesis later)

end Flow

/-- All spellings of an identifier are one identifier. A segment is read as an identifier exactly if
it spells it in one of its forms. A request in which one spelling stands for another is answered
with the same response by the same calls, and leaves the same service; and so it is for any number
of such requests side by side, whatever answers their calls get. Different identifiers are kept
under different keys. -/
theorem spellings_are_one (service : Service) :
    (∀ id name, readId name = .ok id ↔ Spells id name) ∧
    (∀ (s : ServerState) r r', Respelled r r' → s.serve service r = s.serve service r') ∧
    (∀ around start acts acts' finish, List.Forall₂ Flow.Act.Respelled acts acts' →
      (Flow.Runs service around start acts finish ↔
        Flow.Runs service around start acts' finish)) ∧
    ∀ id other, cacheKey id = cacheKey other → id = other := by
  refine ⟨fun _ _ => readId_eq_ok_iff, fun _ _ _ => Respelled.serve_eq, ?_,
    fun _ _ => cacheKey_injective⟩
  intro around start acts acts' finish respelled
  have back : List.Forall₂ Flow.Act.Respelled acts' acts :=
    respelled.flip.imp fun _ _ => Flow.Act.Respelled.symm
  exact ⟨fun run => run.respelled respelled, fun run => run.respelled back⟩

namespace Sample

open StatusRegistry.Sample

/-- The path below which statuses stand. -/
def statuses : Slot where
  origin := []
  front := segment "/api/v1/status/"
  back := []
  isOrigin := .none
  starts := by decide
  ends := by decide
  inPath := List.all_eq_true.mp (by decide)
  closes := nofun

/-- The identifier of the status, as a name with escapes in it. -/
def escapedName : List UInt8 := segment "URN%3auuid:00000000-0000-4000-8000-0000000000%30%31"

/-- The deletion of the status under that name. -/
def escapedRemoval : Request := { removal with target := statuses.fill escapedName }

/-- The two deletions differ in a spelling. -/
theorem respelled_removal : Respelled removal escapedRemoval := by
  have plain : Spells row.id (segment row.id.text) := readId_eq_ok_iff.mp rfl
  have escaped : Spells row.id escapedName := readId_eq_ok_iff.mp rfl
  exact .segment plain escaped rfl (by decide) (by decide)

end Sample

open Http.Sample in
/-- The deletion of a status under another name of it is answered as the deletion of the status. -/
theorem escaped_removal_is_removal : removal.target ≠ escapedRemoval.target ∧
    Respelled removal escapedRemoval ∧
    ∃ served, opening.serve deployment removal = some served ∧
      opening.serve deployment escapedRemoval = some served ∧ served.response = .bare 204 := by
  obtain ⟨served, serves, told⟩ := removal_succeeds
  have same := (spellings_are_one deployment).2.1 opening _ _ respelled_removal
  exact ⟨by decide, respelled_removal, served, serves, same.symm.trans serves, told⟩

end StatusRegistry.Http
