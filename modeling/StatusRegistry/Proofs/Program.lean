import StatusRegistry.Program

/-!
# The points of a program

A point of a program is what is left of it after some of its calls have been answered. Whatever runs
a program, and whatever runs beside it, moves it from point to point, so a property of every point
holds in every run. `Program.Along` states such a property by recursion on the program itself, with
the calls answered so far.
-/

namespace StatusRegistry

/-- A call with the answer it got. -/
structure Exchange where
  call : Call
  answer : call.Answer

namespace Program

variable {α : Type}

/-- A program is at a point after some calls have been answered. -/
inductive Leads : Program α → List Exchange → Program α → Prop where
  | here {p : Program α} : Leads p [] p
  | ask {c : Call} {next : c.Answer → Program α} {answer : c.Answer} {later : List Exchange}
      {rest : Program α} (onward : Leads (next answer) later rest) :
      Leads (.call c next) (⟨c, answer⟩ :: later) rest

/-- A program at a point goes on from there. -/
theorem Leads.trans {p q rest : Program α} {past later : List Exchange}
    (first : Leads p past q) (second : Leads q later rest) : Leads p (past ++ later) rest := by
  induction first with
  | here => exact second
  | ask _ ih => exact .ask (ih second)

/-- The next answer takes a program to its next point. -/
theorem Leads.snoc {p : Program α} {past : List Exchange} {c : Call}
    {next : c.Answer → Program α} (here : Leads p past (.call c next)) (answer : c.Answer) :
    Leads p (past ++ [⟨c, answer⟩]) (next answer) :=
  here.trans (.ask .here)

/-- A program that has had two runs of answers was at a point between them. -/
theorem Leads.split {p rest : Program α} (past : List Exchange) {later : List Exchange}
    (whole : Leads p (past ++ later) rest) : ∃ q, Leads p past q ∧ Leads q later rest := by
  induction past generalizing p with
  | nil => exact ⟨p, .here, whole⟩
  | cons e past ih =>
    cases whole with
    | ask onward =>
      obtain ⟨q, first, second⟩ := ih onward
      exact ⟨q, .ask first, second⟩

/-- A program that has had an answer was about to ask for it. -/
theorem Leads.head {p rest : Program α} {e : Exchange} {later : List Exchange}
    (whole : Leads p (e :: later) rest) :
    ∃ next, p = .call e.call next ∧ Leads (next e.answer) later rest := by
  cases whole with
  | ask onward => exact ⟨_, rfl, onward⟩

/-- A program that has had an answer had come to its call. -/
theorem Leads.at_mem {p rest : Program α} {past : List Exchange} {e : Exchange}
    (whole : Leads p past rest) (member : e ∈ past) :
    ∃ front back next, past = front ++ e :: back ∧ Leads p front (.call e.call next) := by
  obtain ⟨front, back, rfl⟩ := List.append_of_mem member
  obtain ⟨point, first, second⟩ := whole.split front
  obtain ⟨next, rfl, -⟩ := second.head
  exact ⟨front, back, next, rfl, first⟩

/-- A finished program gets no answer. -/
theorem Leads.of_done {a : α} {past : List Exchange} {rest : Program α}
    (whole : Leads (.done a) past rest) : past = [] ∧ rest = .done a := by
  cases whole
  exact ⟨rfl, rfl⟩

/-- A program whose outcome is only told is where the program itself is. -/
theorem Leads.of_told {β : Type} {f : α → β} {p : Program α} {past : List Exchange}
    {rest : Program β} (whole : Leads (p.bind fun a => .done (f a)) past rest) :
    ∃ point, Leads p past point ∧ rest = point.bind fun a => .done (f a) := by
  induction p generalizing past with
  | done a =>
    obtain ⟨rfl, rfl⟩ := Leads.of_done whole
    exact ⟨_, .here, rfl⟩
  | call c next inductionHypothesis =>
    cases whole with
    | here => exact ⟨_, .here, rfl⟩
    | ask onward =>
      obtain ⟨point, leads, told⟩ := inductionHypothesis _ onward
      exact ⟨point, .ask leads, told⟩

/-- A program whose outcome is only told asks what the program itself asks. -/
theorem call_of_told {β : Type} {f : α → β} {p : Program α} {c : Call} {told : c.Answer → Program β}
    (same : p.bind (fun a => .done (f a)) = .call c told) : ∃ next, p = .call c next := by
  cases p with
  | done a => cases same
  | call c next =>
    cases same
    exact ⟨next, rfl⟩

/-- A program whose outcome is only told ends when the program itself ends. -/
theorem done_of_told {β : Type} {f : α → β} {p : Program α} {b : β}
    (same : p.bind (fun a => .done (f a)) = .done b) : ∃ a, p = .done a ∧ f a = b := by
  cases p with
  | done a =>
    cases same
    exact ⟨a, rfl, rfl⟩
  | call c next => cases same

/-- A property of a point and of the answers before it holds at every point of a program. -/
def Along (P : List Exchange → Program α → Prop) : List Exchange → Program α → Prop
  | past, .done a => P past (.done a)
  | past, .call c next =>
    P past (.call c next) ∧ ∀ answer, Along P (past ++ [⟨c, answer⟩]) (next answer)

/-- What holds along a program holds wherever its answers lead. -/
theorem Along.leads {P : List Exchange → Program α → Prop} {p rest : Program α}
    {past later : List Exchange} (along : Along P past p) (leads : Leads p later rest) :
    P (past ++ later) rest := by
  induction leads generalizing past with
  | @here p =>
    rw [List.append_nil]
    cases p with
    | done a => exact along
    | call c next => exact along.1
  | ask _ ih =>
    have found := ih (along.2 _)
    rwa [List.append_assoc, List.singleton_append] at found

end Program

end StatusRegistry
