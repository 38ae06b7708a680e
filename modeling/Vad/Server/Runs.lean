/-
  Requests made one after another.

  A sequential run makes one request at a time and carries on with whatever store the request
  leaves, also when it raised an exception on its way.  Something is proved of a run by what one
  request keeps (`afterRequests_keeps`), or by what one request does to a store that satisfies an
  invariant (`alongRequests_of_invariant`).
-/
import Vad.Server.Invariant

namespace Vad

open Atomic (Program)

/-- The store after a request, whether it returned or raised. -/
def afterRequest (o : Outside) (s : Store) (r : Request × DateTime) : Store :=
  ((r.1.perform o r.2).run s).2

/-- The store after a sequence of requests. -/
def afterRequests (o : Outside) (s : Store) (requests : List (Request × DateTime)) : Store :=
  requests.foldl (afterRequest o) s

/-- What every request of a run does, from the store it finds to the store it leaves. -/
def AlongRequests (o : Outside) (R : Request × DateTime → Store → Store → Prop) :
    List (Request × DateTime) → Store → Prop
  | [], _ => True
  | r :: rest, s => R r s (afterRequest o s r) ∧ AlongRequests o R rest (afterRequest o s r)

/-- `J` holds throughout a run: of the store that each request finds, of the one that each of its
    store calls leaves, and of the last one. -/
def ThroughRequests (o : Outside) (J : Store → Prop) : List (Request × DateTime) → Store → Prop
  | [], s => J s
  | r :: rest, s => J s ∧ Program.Within (fun _ t => J t) (r.1.perform o r.2) s ∧
      ThroughRequests o J rest (afterRequest o s r)

variable {o : Outside} {I : Store → Prop}

theorem ThroughRequests.first {J : Store → Prop} {requests : List (Request × DateTime)} {s : Store}
    (h : ThroughRequests o J requests s) : J s := by
  cases requests with
  | nil => exact h
  | cons r rest => exact h.1

theorem ThroughRequests.last {J : Store → Prop} {requests : List (Request × DateTime)} :
    ∀ {s : Store}, ThroughRequests o J requests s → J (afterRequests o s requests) := by
  induction requests with
  | nil => exact fun h => h
  | cons r rest ih => exact fun h => ih h.2.2

/-- What one request keeps, a run keeps. -/
theorem afterRequests_keeps (requests : List (Request × DateTime))
    (hstep : ∀ r ∈ requests, ∀ s, I s → I (afterRequest o s r)) :
    ∀ s, I s → I (afterRequests o s requests) := by
  induction requests with
  | nil => exact fun s hs => hs
  | cons r rest ih =>
    intro s hs
    have hrest := ih fun x hx => hstep x (List.mem_cons_of_mem r hx)
    exact hrest _ (hstep r (List.mem_cons_self ..) s hs)

/-- What one request does under an invariant, every request of a run does. -/
theorem alongRequests_of_invariant {R : Request × DateTime → Store → Store → Prop}
    (hkeep : ∀ r s, I s → I (afterRequest o s r)) (hstep : ∀ r s, I s → R r s (afterRequest o s r)) :
    ∀ (requests : List (Request × DateTime)) (s : Store), I s → AlongRequests o R requests s := by
  intro requests
  induction requests with
  | nil => exact fun s _ => trivial
  | cons r rest ih => exact fun s hs => ⟨hstep r s hs, ih _ (hkeep r s hs)⟩

/-- Columns and payloads stay in order along a run. -/
theorem rowsOk_afterRequest (r : Request × DateTime) (s : Store) (hs : RowsOk (fun _ => True) s) :
    RowsOk (fun _ => True) (afterRequest o s r) :=
  (safe_request (fun _ _ => trivial) (fun _ _ _ => trivial) o r.2).run_keeps hs

end Vad
