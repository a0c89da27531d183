import MoveDesk.Proofs.Clients
import MoveDesk.Proofs.Registrations

/-!
# The two parts of a desk do not meet

A desk is a catalog and a context. Requests on the context are answered from it alone, all others
from the catalog alone, and neither kind changes the part of the other. `Confined` is what this asks
of one request; what it gives for a run is proved once, for either part.

A desk that is shared stands behind a lock for readers and a writer. The lock is a parameter, with
what is known of one on which nobody waits as its laws. A reader has nothing to put back, so it
matters that the requests answered under a guard for reading leave the desk as it is.

Headline:
* **`answerAll_two_parts`**: the answers of either kind are those to the requests of that kind
  alone, whatever the other part held, at a desk and behind a lock.
-/

namespace MoveDesk

namespace Desk

/-! ## Runs of requests -/

/-- A request with the answer to it. -/
structure Exchange where
  /-- The request. -/
  request : Request
  /-- The answer. -/
  answer : Answer

/-- The requests made in turn, with the answers to them. -/
def exchanges (desk : Desk) (requests : List Request) : List Exchange :=
  List.zipWith Exchange.mk requests (desk.answerAll requests).2

theorem exchanges_cons (desk : Desk) (request : Request) (rest : List Request) :
    desk.exchanges (request :: rest) =
      ⟨request, (desk.answer request).2⟩ :: (desk.answer request).1.exchanges rest := rfl

theorem map_request_exchanges (desk : Desk) (requests : List Request) :
    (desk.exchanges requests).map (·.request) = requests := by
  induction requests generalizing desk with
  | nil => rfl
  | cons request rest ih => exact congrArg (request :: ·) (ih (desk.answer request).1)

theorem map_answer_exchanges (desk : Desk) (requests : List Request) :
    (desk.exchanges requests).map (·.answer) = (desk.answerAll requests).2 := by
  induction requests generalizing desk with
  | nil => rfl
  | cons request rest ih =>
    exact congrArg ((desk.answer request).2 :: ·) (ih (desk.answer request).1)

/-! ## Requests that keep to a part -/

/-- Requests of the kind read and change only the part of the desk, and no other request changes
it. -/
structure Confined {α : Type} (part : Desk → α) (kind : Request → Bool) : Prop where
  /-- The part decides the answer. -/
  answer_eq : ∀ {desk desk' : Desk} {request : Request}, kind request = true →
    part desk = part desk' → (desk.answer request).2 = (desk'.answer request).2
  /-- The part decides what becomes of it. -/
  part_eq : ∀ {desk desk' : Desk} {request : Request}, kind request = true →
    part desk = part desk' → part (desk.answer request).1 = part (desk'.answer request).1
  /-- Other requests leave it. -/
  part_answer : ∀ (desk : Desk) {request : Request}, kind request = false →
    part (desk.answer request).1 = part desk

/-- **What keeps to a part of the desk in each step does so in a run**: other requests can be left
out, and the rest of the desk can be any. -/
theorem Confined.filter_exchanges {α : Type} {part : Desk → α} {kind : Request → Bool}
    (h : Confined part kind) {desk desk' : Desk} (hpart : part desk = part desk')
    (requests : List Request) :
    (desk.exchanges requests).filter (kind ·.request) = desk'.exchanges (requests.filter kind) := by
  induction requests generalizing desk desk' with
  | nil => rfl
  | cons request rest ih =>
    rw [exchanges_cons, List.filter_cons, List.filter_cons]
    by_cases hkind : kind request = true
    · rw [if_pos hkind, if_pos hkind, exchanges_cons, h.answer_eq hkind hpart,
        ih (h.part_eq hkind hpart)]
    · rw [if_neg hkind, if_neg hkind]
      exact ih ((h.part_answer desk (Bool.eq_false_iff.mpr hkind)).trans hpart)

/-! ## The two parts -/

/-- The request is about the context. -/
def Request.isOnContext : Request → Bool
  | .analyze _ | .context => true
  | _ => false

theorem template?_of_isOnContext {request : Request} (h : request.isOnContext = true) :
    request.template? = none := by
  cases request with
  | analyze source => rfl
  | context => rfl
  | _ => cases h

theorem confined_context : Confined (·.context) Request.isOnContext where
  answer_eq := by
    intro desk desk' request hkind hcontext
    cases request with
    | analyze source => simp only [answer, analyze, hcontext]
    | context => simp only [answer, hcontext]
    | _ => cases hkind
  part_eq := by
    intro desk desk' request hkind hcontext
    cases request with
    | analyze source => simp only [answer, analyze, hcontext]
    | context => exact hcontext
    | _ => cases hkind
  part_answer := by
    intro desk request hkind
    cases request with
    | analyze source => cases hkind
    | context => cases hkind
    | register template =>
      simp only [answer]
      split <;> rfl
    | generatePattern patternId params =>
      simp only [answer]
      split <;> rfl
    | _ => rfl

theorem confined_catalog : Confined (·.catalog) (!·.isOnContext) where
  answer_eq := by
    intro desk desk' request hkind hcatalog
    cases request with
    | analyze source => cases hkind
    | context => cases hkind
    | generate instruction params => simp only [answer, generate, hcatalog]
    | register template =>
      simp only [answer, hcatalog]
      split <;> rfl
    | generatePattern patternId params =>
      simp only [answer, hcatalog]
      split <;> rfl
    | _ => simp only [answer, hcatalog]
  part_eq := by
    intro desk desk' request _ hcatalog
    rw [catalog_answer, catalog_answer, hcatalog]
  part_answer := by
    intro desk request hkind
    rw [catalog_answer, template?_of_isOnContext (by simpa using hkind)]
    rfl

end Desk

/-! ## A desk behind a lock -/

/-- A lock for readers and a writer, around a value. Where a guard has to be waited for there is
none. -/
structure RwLock (α : Type) where
  /-- The states of the lock, with the value in it. -/
  State : Type
  /-- The lock around a value. -/
  new : α → State
  /-- The lock with one more guard for reading given out. -/
  read? : State → Option State
  /-- The lock with the guard for writing given out. -/
  write? : State → Option State
  /-- The value that a guard leads to. -/
  value : State → α
  /-- The lock with a value put in under the guard for writing. -/
  put : α → State → State
  /-- The lock with a guard for reading given back. -/
  endRead : State → State
  /-- The lock with the guard for writing given back. -/
  endWrite : State → State

namespace RwLock

/-- What is known of a lock of which no guard is out. -/
structure Lawful {α : Type} (lock : RwLock α) (Idle : α → lock.State → Prop) : Prop where
  /-- A new lock is idle. -/
  idle_new : ∀ a, Idle a (lock.new a)
  /-- An idle lock gives out a guard for reading, and is idle when it is back. -/
  read : ∀ {a s}, Idle a s →
    ∃ held, lock.read? s = some held ∧ lock.value held = a ∧ Idle a (lock.endRead held)
  /-- An idle lock gives out the guard for writing, and is idle, with what was put in, when it is
  back. -/
  write : ∀ {a s}, Idle a s →
    ∃ held, lock.write? s = some held ∧ lock.value held = a ∧
      ∀ b, Idle b (lock.endWrite (lock.put b held))

open Desk

variable (lock : RwLock Desk)

/-- The answer to a request under one guard, and the lock behind it. Only the guard for writing puts
a desk back. -/
def answer? (s : lock.State) (request : Request) : Option (lock.State × Answer) :=
  if request.reads then
    (lock.read? s).map fun held => (lock.endRead held, ((lock.value held).answer request).2)
  else
    (lock.write? s).map fun held =>
      let (desk, answer) := (lock.value held).answer request
      (lock.endWrite (lock.put desk held), answer)

/-- The answers to requests made in turn, and the lock behind them. -/
def answerAll? (s : lock.State) : List Request → Option (lock.State × List Answer)
  | [] => some (s, [])
  | request :: rest => do
    let (s, first) ← lock.answer? s request
    let (s, others) ← answerAll? s rest
    return (s, first :: others)

/-- The requests made in turn of a desk behind the lock, with the answers to them. -/
def exchanges? (desk : Desk) (requests : List Request) : Option (List Exchange) :=
  (lock.answerAll? (lock.new desk) requests).map fun (_, answers) =>
    List.zipWith Exchange.mk requests answers

variable {lock} {Idle : Desk → lock.State → Prop} {desk : Desk} {s : lock.State}

/-- **One request** is answered behind an idle lock as at the desk, and leaves the lock idle. -/
theorem Lawful.answer? (h : lock.Lawful Idle) (hidle : Idle desk s) (request : Request) :
    ∃ next, lock.answer? s request = some (next, (desk.answer request).2) ∧
      Idle (desk.answer request).1 next := by
  unfold RwLock.answer?
  cases hreads : request.reads with
  | true =>
    obtain ⟨held, hheld, hvalue, hnext⟩ := h.read hidle
    refine ⟨lock.endRead held, ?_, ?_⟩
    · simp [hheld, hvalue]
    · rw [answer_of_reads desk hreads]
      exact hnext
  | false =>
    obtain ⟨held, hheld, hvalue, hnext⟩ := h.write hidle
    refine ⟨lock.endWrite (lock.put (desk.answer request).1 held), ?_, hnext _⟩
    simp [hheld, hvalue]

theorem Lawful.answerAll? (h : lock.Lawful Idle) (hidle : Idle desk s) (requests : List Request) :
    ∃ next, lock.answerAll? s requests = some (next, (desk.answerAll requests).2) ∧
      Idle (desk.answerAll requests).1 next := by
  induction requests generalizing desk s with
  | nil => exact ⟨s, rfl, hidle⟩
  | cons request rest ih =>
    obtain ⟨middle, hfirst, hmiddle⟩ := h.answer? hidle request
    obtain ⟨next, hrest, hnext⟩ := ih hmiddle
    refine ⟨next, ?_, hnext⟩
    simp only [RwLock.answerAll?, hfirst, hrest, Option.bind_eq_bind, Option.bind_some]
    rfl

/-- Behind a lock a run is the run at the desk. -/
theorem Lawful.exchanges? (h : lock.Lawful Idle) (desk : Desk) (requests : List Request) :
    lock.exchanges? desk requests = some (desk.exchanges requests) := by
  obtain ⟨next, hnext, -⟩ := h.answerAll? (h.idle_new desk) requests
  rw [RwLock.exchanges?, hnext]
  rfl

/-- What keeps to a part of the desk does so at the desk and behind a lock. -/
theorem Lawful.filter_exchanges {α : Type} {part : Desk → α} {kind : Request → Bool}
    (h : lock.Lawful Idle) (hkind : Confined part kind) {desk desk' : Desk}
    (hpart : part desk = part desk') (requests : List Request) :
    (desk.exchanges requests).filter (kind ·.request) = desk'.exchanges (requests.filter kind) ∧
      (lock.exchanges? desk requests).map (·.filter (kind ·.request)) =
        lock.exchanges? desk' (requests.filter kind) := by
  have hparts := hkind.filter_exchanges hpart requests
  refine ⟨hparts, ?_⟩
  rw [h.exchanges?, h.exchanges?, Option.map_some, hparts]

end RwLock

namespace Desk

/-- **The two parts of a desk do not meet**, whatever is requested of it in turn:
* the requests on the context are answered as if they alone had been made, of a desk with the same
  context and any catalog;
* the other requests are answered as if they alone had been made, of a desk with the same catalog
  and any context;
* behind a lock no request has to wait, all are answered as at the desk, and so both hold there. -/
theorem answerAll_two_parts (desk : Desk) (requests : List Request) (lock : RwLock Desk)
    (Idle : Desk → lock.State → Prop) (hlock : lock.Lawful Idle) :
    (desk.exchanges requests).map (·.request) = requests ∧
      (desk.exchanges requests).map (·.answer) = (desk.answerAll requests).2 ∧
      lock.exchanges? desk requests = some (desk.exchanges requests) ∧
      (∀ catalog : Catalog,
        let other : Desk := { desk with catalog }
        let alone := requests.filter (·.isOnContext)
        (desk.exchanges requests).filter (·.request.isOnContext) = other.exchanges alone ∧
          (lock.exchanges? desk requests).map (·.filter (·.request.isOnContext)) =
            lock.exchanges? other alone) ∧
      ∀ context : Context,
        let other : Desk := { desk with context }
        let alone := requests.filter (!·.isOnContext)
        (desk.exchanges requests).filter (!·.request.isOnContext) = other.exchanges alone ∧
          (lock.exchanges? desk requests).map (·.filter (!·.request.isOnContext)) =
            lock.exchanges? other alone := by
  refine ⟨map_request_exchanges desk requests, map_answer_exchanges desk requests,
    hlock.exchanges? desk requests, fun catalog => ?_, fun context => ?_⟩
  · intro other alone
    have hcontext : desk.context = other.context := rfl
    exact hlock.filter_exchanges confined_context hcontext requests
  · intro other alone
    have hcatalog : desk.catalog = other.catalog := rfl
    exact hlock.filter_exchanges confined_catalog hcatalog requests

end Desk

namespace RwLock

/-- A value with the guards that are out. -/
structure Guarded (α : Type) where
  /-- The value. -/
  value : α
  /-- The guards for reading. -/
  readers : Nat := 0
  /-- The guard for writing is out. -/
  isWritten : Bool := false

/-- The lock that counts its guards. -/
def counting (α : Type) : RwLock α where
  State := Guarded α
  new value := { value }
  read? s := if s.isWritten then none else some { s with readers := s.readers + 1 }
  write? s := if s.isWritten || s.readers ≠ 0 then none else some { s with isWritten := true }
  value := Guarded.value
  put value s := { s with value }
  endRead s := { s with readers := s.readers - 1 }
  endWrite s := { s with isWritten := false }

theorem lawful_counting (α : Type) :
    (counting α).Lawful fun value s => s = ({ value } : Guarded α) where
  idle_new _ := rfl
  read := by
    rintro a s rfl
    exact ⟨{ value := a, readers := 1 }, rfl, rfl, rfl⟩
  write := by
    rintro a s rfl
    exact ⟨{ value := a, isWritten := true }, rfl, rfl, fun _ => rfl⟩

end RwLock

/-- A template registered between an analysis and the question for the context. -/
theorem Desk.answerAll_two_parts_registration :
    let escrow :=
      Template.ofBody "move.escrow" .unrecognized "Escrow" [] "module 0x1::Escrow \x7b\x7d"
    let source := "struct A \x7b\x7d"
    let requests : List Request :=
      [.analyze source, .register escrow, .generate "hello" ∅, .context]
    (RwLock.counting Desk).Lawful (fun desk s => s = { value := desk }) ∧
      ((RwLock.counting Desk).exchanges? {} requests).map
          (·.filterMap fun e => if e.request.isOnContext then some e.answer else none) =
        some [.growth ⟨0, 1, 0⟩, .snapshot { structs := ["A"] }] ∧
      (({} : Desk).exchanges requests).filter (!·.request.isOnContext) =
        ({ context := ⟨⟨["M"]⟩, ∅, ∅⟩ } : Desk).exchanges
          [.register escrow, .generate "hello" ∅] := by
  intro escrow source requests
  have hlock := RwLock.lawful_counting Desk
  obtain ⟨-, -, hlocked, -, hcatalog⟩ :=
    answerAll_two_parts {} requests (RwLock.counting Desk) _ hlock
  refine ⟨hlock, ?_, (hcatalog ⟨⟨["M"]⟩, ∅, ∅⟩).1⟩
  rw [hlocked]
  decide +kernel

end MoveDesk
