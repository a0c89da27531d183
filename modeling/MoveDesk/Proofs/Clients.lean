import Mathlib.Algebra.GroupWithZero.Nat
import Mathlib.Logic.Function.Basic
import Mathlib.Logic.Relation
import MoveDesk.Proofs.Analysis

/-!
# Many clients at one desk

Clients share a desk behind a lock for readers and writers. What is done under one guard is one
step: an analysis with the copy of the context that it answers with, or requests that only read.
`Step` takes the next call of any client, so a path of steps is an interleaving of what the clients
do, and every interleaving is such a path.

`Accounted` is the invariant. It ties the lists of the desk to the log of what was answered: each
list is the one at the start, followed by the names that the answers count, in the order of the log.

Headline:
* **`clients_lose_nothing`**: whatever the interleaving, no name is lost, held twice or counted
  twice, and all snapshots lie on one growing chain.
-/

namespace MoveDesk

/-! ## Requests that only read -/

namespace Desk

/-- The request leaves the desk as it is. -/
def Request.reads : Request → Bool
  | .analyze _ | .register _ => false
  | _ => true

theorem answer_of_reads (desk : Desk) {request : Request} (h : request.reads = true) :
    (desk.answer request).1 = desk := by
  cases request with
  | analyze source => cases h
  | register template => cases h
  | generatePattern patternId params =>
    simp only [answer]
    split <;> rfl
  | _ => rfl

theorem answerAll_of_reads (desk : Desk) : ∀ {requests : List Request},
    (∀ request ∈ requests, request.reads = true) → (desk.answerAll requests).1 = desk
  | [], _ => rfl
  | request :: requests, h => by
    obtain ⟨hfirst, hrest⟩ := List.forall_mem_cons.mp h
    simp only [answerAll]
    rw [answer_of_reads desk hfirst, answerAll_of_reads desk hrest]

/-- Only the context is answered by a snapshot, and it is the one of the time. -/
theorem eq_snapshot_of_answer (desk : Desk) {request : Request} {snapshot : Snapshot}
    (h : (desk.answer request).2 = .snapshot snapshot) : snapshot = desk.context.snapshot := by
  cases request with
  | context => exact (Answer.snapshot.inj h).symm
  | register template =>
    simp only [answer] at h
    split at h <;> cases h
  | generatePattern patternId params =>
    simp only [answer] at h
    split at h <;> cases h
  | _ => cases h

theorem eq_snapshot_of_answerAll (desk : Desk) {snapshot : Snapshot} :
    ∀ {requests : List Request}, (∀ request ∈ requests, request.reads = true) →
      .snapshot snapshot ∈ (desk.answerAll requests).2 → snapshot = desk.context.snapshot
  | [], _, h => absurd h List.not_mem_nil
  | request :: requests, hreads, h => by
    obtain ⟨hfirst, hrest⟩ := List.forall_mem_cons.mp hreads
    simp only [answerAll, answer_of_reads desk hfirst] at h
    rcases List.mem_cons.mp h with h | h
    · exact eq_snapshot_of_answer desk h.symm
    · exact eq_snapshot_of_answerAll desk hrest h

end Desk

/-- Each list of `a` is the front of the same list of `b`. -/
def Snapshot.IsPrefix (a b : Snapshot) : Prop := ∀ kind, a.names kind <+: b.names kind

theorem Snapshot.IsPrefix.trans {a b c : Snapshot} (hab : a.IsPrefix b) (hbc : b.IsPrefix c) :
    a.IsPrefix c :=
  fun kind => (hab kind).trans (hbc kind)

namespace Clients

/-! ## Calls and replies -/

/-- What a client asks for under one guard of the lock. -/
inductive Call where
  /-- Analyze a source and copy the context, as a writer. -/
  | analyze (source : String)
  /-- Answer requests that only read, as a reader. -/
  | read (requests : List Desk.Request) (reads : ∀ request ∈ requests, request.reads = true)

/-- What a client is given back. -/
inductive Reply where
  /-- How many names were new, and the context behind the analysis. -/
  | analyzed (growth : Growth) (context : Snapshot)
  /-- The answers to requests. -/
  | answered (answers : List Desk.Answer)

/-- The desk behind a call, and the reply. -/
def Call.serve (desk : Desk) : Call → Desk × Reply
  | analyze source =>
    let (desk, growth) := desk.analyze source
    (desk, .analyzed growth desk.context.snapshot)
  | read requests _ =>
    let (desk, answers) := desk.answerAll requests
    (desk, .answered answers)

namespace Reply

/-- How many names the reply counts as new; none if it is not one to an analysis. -/
def growth : Reply → Growth
  | analyzed growth _ => growth
  | answered _ => {}

/-- The snapshots that the reply holds. -/
def snapshots : Reply → List Snapshot
  | analyzed _ context => [context]
  | answered answers => answers.filterMap fun
    | .snapshot snapshot => some snapshot
    | _ => none

/-- The names of a kind that the reply counts as new: as many as it says, from the end of the
snapshot that it holds. -/
def counted (kind : Kind) : Reply → List String
  | analyzed growth context =>
    (context.names kind).drop ((context.names kind).length - growth.count kind)
  | answered _ => []

end Reply

namespace Call

variable {desk : Desk}

theorem counted_analyze (desk : Desk) (source : String) (kind : Kind) :
    ((analyze source).serve desk).2.counted kind = desk.context.fresh kind source := by
  have hlength := Context.length_extract desk.context source kind
  simp only [serve, Desk.analyze, Reply.counted, Context.names_snapshot]
  rw [hlength, Nat.add_sub_cancel, Context.names_extract, List.drop_left]

/-- **A call appends to each list exactly the names that its reply counts.** -/
theorem names_serve (desk : Desk) (call : Call) (kind : Kind) :
    (call.serve desk).1.context.names kind =
      desk.context.names kind ++ (call.serve desk).2.counted kind := by
  cases call with
  | analyze source =>
    rw [counted_analyze]
    exact Context.names_extract desk.context source kind
  | read requests hreads =>
    have hdesk := Desk.answerAll_of_reads desk hreads
    simp only [serve, Reply.counted, hdesk, List.append_nil]

theorem length_counted (desk : Desk) (call : Call) (kind : Kind) :
    ((call.serve desk).2.counted kind).length = (call.serve desk).2.growth.count kind := by
  cases call with
  | analyze source =>
    rw [counted_analyze]
    exact (Context.count_extract desk.context source kind).symm
  | read requests hreads => cases kind <;> rfl

/-- A counted name is one that the call's own source declares. -/
theorem exists_scan_of_mem_counted {call : Call} {kind : Kind} {name : String}
    (h : name ∈ (call.serve desk).2.counted kind) :
    ∃ source, call = analyze source ∧ name ∈ kind.scan source := by
  cases call with
  | analyze source =>
    rw [counted_analyze] at h
    exact ⟨source, rfl, (Context.mem_fresh.mp h).1⟩
  | read requests hreads => exact absurd h List.not_mem_nil

theorem distinct_serve (h : desk.context.Distinct) (call : Call) :
    (call.serve desk).1.context.Distinct := by
  cases call with
  | analyze source => exact Context.distinct_extract h source
  | read requests hreads =>
    have hdesk := Desk.answerAll_of_reads desk hreads
    simp only [serve, hdesk]
    exact h

/-- Every snapshot in a reply is the one of the context behind the call. -/
theorem eq_snapshot_of_mem_snapshots {call : Call} {snapshot : Snapshot}
    (h : snapshot ∈ (call.serve desk).2.snapshots) :
    snapshot = (call.serve desk).1.context.snapshot := by
  cases call with
  | analyze source => exact List.mem_singleton.mp h
  | read requests hreads =>
    have hdesk := Desk.answerAll_of_reads desk hreads
    simp only [serve, hdesk]
    simp only [serve, Reply.snapshots, List.mem_filterMap] at h
    obtain ⟨answer, hanswer, hsome⟩ := h
    split at hsome
    · obtain rfl := Option.some.inj hsome
      exact Desk.eq_snapshot_of_answerAll desk hreads hanswer
    · cases hsome

end Call

/-! ## Interleavings -/

/-- In a concatenation without repeats an entry is in exactly one of the parts. -/
theorem countP_eq_one_of_mem_flatMap {α β : Type} [DecidableEq β] {f : α → List β} {b : β} :
    ∀ {l : List α}, (l.flatMap f).Nodup → b ∈ l.flatMap f → l.countP (fun a => b ∈ f a) = 1
  | [], _, h => absurd h List.not_mem_nil
  | a :: l, hnodup, h => by
    rw [List.flatMap_cons] at hnodup h
    obtain ⟨-, hrest, hdisjoint⟩ := List.nodup_append.mp hnodup
    by_cases ha : b ∈ f a
    · have hnone : l.countP (fun a => b ∈ f a) = 0 := by
        refine List.countP_eq_zero.mpr fun c hc hb => ?_
        exact hdisjoint b ha b (List.mem_flatMap.mpr ⟨c, hc, of_decide_eq_true hb⟩) rfl
      rw [List.countP_cons_of_pos (by simpa using ha), hnone]
    · rw [List.countP_cons_of_neg (by simpa using ha)]
      exact countP_eq_one_of_mem_flatMap hrest ((List.mem_append.mp h).resolve_left ha)

variable {ι : Type}

/-- A call of a client, and the reply to it. -/
structure Exchange (ι : Type) where
  /-- The client. -/
  client : ι
  /-- The call. -/
  call : Call
  /-- The reply. -/
  reply : Reply

/-- The desk, what each client still asks for, and what was answered so far. -/
structure State (ι : Type) where
  /-- The desk. -/
  desk : Desk
  /-- The calls of each client that are not served yet, in order. -/
  pending : ι → List Call
  /-- The calls that were served, the first one first. -/
  log : List (Exchange ι) := []

namespace State

/-- The names of a kind at the desk. -/
def names (s : State ι) (kind : Kind) : List String := s.desk.context.names kind

/-- Every snapshot that any client was given, the first one first. -/
def snapshots (s : State ι) : List Snapshot := s.log.flatMap (·.reply.snapshots)

variable [DecidableEq ι]

/-- The calls of a client that were served, in order. -/
def served (s : State ι) (client : ι) : List Call :=
  (s.log.filter (·.client = client)).map (·.call)

/-- The state behind the next call of a client. -/
def serve (s : State ι) (client : ι) (call : Call) (rest : List Call) : State ι where
  desk := (call.serve s.desk).1
  pending := Function.update s.pending client rest
  log := s.log ++ [⟨client, call, (call.serve s.desk).2⟩]

end State

variable [DecidableEq ι]

/-- One client's next call is served, as one step. -/
inductive Step : State ι → State ι → Prop
  | serve {s : State ι} {client : ι} {call : Call} {rest : List Call}
      (h : s.pending client = call :: rest) : Step s (s.serve client call rest)

/-- The states of the interleavings of the clients' programs at a desk. -/
def Reach (start : Desk) (programs : ι → List Call) : State ι → Prop :=
  Relation.ReflTransGen Step { desk := start, pending := programs }

/-! ## The invariant -/

/-- The log accounts for the desk. -/
structure Accounted (start : Desk) (programs : ι → List Call) (s : State ι) : Prop where
  /-- No list holds a name twice. -/
  distinct : s.desk.context.Distinct
  /-- Each client's calls are served in its order. -/
  order : ∀ client, s.served client ++ s.pending client = programs client
  /-- Every reply is one to its call. -/
  replies : ∀ e ∈ s.log, ∃ desk, e.reply = (e.call.serve desk).2
  /-- A list is the one at the start and all that the replies count. -/
  names_eq : ∀ kind,
    s.names kind = start.context.names kind ++ s.log.flatMap (·.reply.counted kind)
  /-- No snapshot is ahead of the desk. -/
  behind : ∀ snapshot ∈ s.snapshots, snapshot.IsPrefix s.desk.context.snapshot
  /-- A later snapshot extends an earlier one. -/
  chain : s.snapshots.Pairwise Snapshot.IsPrefix

variable {start : Desk} {programs : ι → List Call} {s : State ι}

theorem accounted_start (h : start.context.Distinct) :
    Accounted start programs { desk := start, pending := programs } where
  distinct := h
  order _ := rfl
  replies := by simp
  names_eq kind := by simp [State.names]
  behind := by simp [State.snapshots]
  chain := List.Pairwise.nil

/-- The snapshot of a context is at the front of the one behind any call. -/
theorem isPrefix_serve (desk : Desk) (call : Call) :
    desk.context.snapshot.IsPrefix (call.serve desk).1.context.snapshot := by
  intro kind
  rw [Context.names_snapshot, Context.names_snapshot, Call.names_serve]
  exact List.prefix_append _ _

theorem State.served_serve (s : State ι) (client other : ι) (call : Call) (rest : List Call) :
    (s.serve client call rest).served other =
      s.served other ++ if client = other then [call] else [] := by
  simp only [served, serve, List.filter_append, List.map_append]
  by_cases h : client = other <;> simp [h]

theorem State.snapshots_serve (s : State ι) (client : ι) (call : Call) (rest : List Call) :
    (s.serve client call rest).snapshots = s.snapshots ++ (call.serve s.desk).2.snapshots := by
  simp [snapshots, serve]

/-- **One step keeps the account.** -/
theorem Accounted.serve (h : Accounted start programs s) {client : ι} {call : Call}
    {rest : List Call} (hpending : s.pending client = call :: rest) :
    Accounted start programs (s.serve client call rest) where
  distinct := Call.distinct_serve h.distinct call
  order other := by
    rw [State.served_serve]
    by_cases heq : other = client
    · subst heq
      have hother := h.order other
      rw [hpending] at hother
      simpa [State.serve] using hother
    · simpa [State.serve, heq, Ne.symm heq] using h.order other
  replies := by
    intro e he
    rcases List.mem_append.mp he with he | he
    · exact h.replies e he
    · obtain rfl := List.mem_singleton.mp he
      exact ⟨s.desk, rfl⟩
  names_eq kind := by
    have hnames := h.names_eq kind
    unfold State.names at hnames ⊢
    simp only [State.serve, Call.names_serve, hnames, List.flatMap_append, List.flatMap_cons,
      List.flatMap_nil, List.append_nil, List.append_assoc]
  behind := by
    intro snapshot hsnapshot
    rw [State.snapshots_serve] at hsnapshot
    rcases List.mem_append.mp hsnapshot with hold | hnew
    · exact (h.behind snapshot hold).trans (isPrefix_serve s.desk call)
    · rw [Call.eq_snapshot_of_mem_snapshots hnew]
      exact fun kind => List.prefix_refl _
  chain := by
    rw [State.snapshots_serve]
    refine List.pairwise_append.mpr ⟨h.chain, ?_, fun old hold new hnew => ?_⟩
    · -- the snapshots of one reply are all the same
      refine List.pairwise_iff_forall_sublist.mpr fun {a b} hab => ?_
      have ha := Call.eq_snapshot_of_mem_snapshots (hab.subset List.mem_cons_self)
      have hb := Call.eq_snapshot_of_mem_snapshots
        (hab.subset (List.mem_cons_of_mem _ List.mem_cons_self))
      rw [ha, hb]
      exact fun kind => List.prefix_refl _
    · rw [Call.eq_snapshot_of_mem_snapshots hnew]
      exact (h.behind old hold).trans (isPrefix_serve s.desk call)

theorem accounted_of_reach (h : start.context.Distinct) (hs : Reach start programs s) :
    Accounted start programs s := by
  induction hs with
  | refl => exact accounted_start h
  | tail _ hstep ih =>
    cases hstep with
    | serve hpending => exact ih.serve hpending

/-! ## What the account says -/

namespace Accounted

variable (h : Accounted start programs s)

include h

theorem call_mem_programs {e : Exchange ι} (he : e ∈ s.log) : e.call ∈ programs e.client := by
  rw [← h.order e.client]
  refine List.mem_append_left _ (List.mem_map_of_mem (List.mem_filter.mpr ⟨he, ?_⟩))
  simp

/-- The snapshot in the reply to an analysis holds what its source declares. -/
theorem exists_snapshot {e : Exchange ι} (he : e ∈ s.log) {source : String}
    (hcall : e.call = .analyze source) : ∃ growth snapshot, e.reply = .analyzed growth snapshot ∧
      ∀ kind, ∀ name ∈ kind.scan source, name ∈ snapshot.names kind := by
  obtain ⟨desk, hreply⟩ := h.replies e he
  rw [hreply, hcall]
  refine ⟨_, _, rfl, fun kind name hname => ?_⟩
  rw [Context.names_snapshot]
  exact Context.mem_extract.mpr (Or.inr hname)

/-- A name that was not there at the start is one that an analyzed source declares. -/
theorem exists_scan_of_mem {kind : Kind} {name : String} (hname : name ∈ s.names kind) :
    name ∈ start.context.names kind ∨
      ∃ client source, Call.analyze source ∈ programs client ∧ name ∈ kind.scan source := by
  rw [h.names_eq, List.mem_append, List.mem_flatMap] at hname
  refine hname.imp_right ?_
  rintro ⟨e, he, hcounted⟩
  obtain ⟨desk, hreply⟩ := h.replies e he
  rw [hreply] at hcounted
  obtain ⟨source, hcall, hscan⟩ := Call.exists_scan_of_mem_counted hcounted
  exact ⟨e.client, source, hcall ▸ h.call_mem_programs he, hscan⟩

/-- What a served source declares is there. -/
theorem mem_of_served {client : ι} {source : String}
    (hserved : Call.analyze source ∈ s.served client) {kind : Kind} {name : String}
    (hname : name ∈ kind.scan source) : name ∈ s.names kind := by
  obtain ⟨e, he, hcall⟩ := List.mem_map.mp hserved
  have hlog := (List.mem_filter.mp he).1
  obtain ⟨growth, snapshot, hreply, hscan⟩ := h.exists_snapshot hlog hcall
  have hsnapshot : snapshot ∈ s.snapshots :=
    List.mem_flatMap.mpr ⟨e, hlog, by rw [hreply]; exact List.mem_singleton_self snapshot⟩
  have hfront := h.behind snapshot hsnapshot kind
  rw [Context.names_snapshot] at hfront
  exact hfront.subset (hscan kind name hname)

theorem length_counted {e : Exchange ι} (he : e ∈ s.log) (kind : Kind) :
    (e.reply.counted kind).length = e.reply.growth.count kind := by
  obtain ⟨desk, hreply⟩ := h.replies e he
  rw [hreply]
  exact Call.length_counted desk e.call kind

/-- The counts of the replies add up to what the list grew by. -/
theorem length_names (kind : Kind) :
    (s.names kind).length =
      (start.context.names kind).length + (s.log.map (·.reply.growth.count kind)).sum := by
  have hcounts : s.log.map (fun e => (e.reply.counted kind).length) =
      s.log.map (·.reply.growth.count kind) :=
    List.map_congr_left fun e he => h.length_counted he kind
  rw [h.names_eq, List.length_append, List.length_flatMap, hcounts]

/-- A new name is counted by exactly one reply. -/
theorem countP_counted {kind : Kind} {name : String} (hname : name ∈ s.names kind)
    (hnew : name ∉ start.context.names kind) :
    s.log.countP (fun e => name ∈ e.reply.counted kind) = 1 := by
  have hnodup : (s.names kind).Nodup := h.distinct kind
  rw [h.names_eq] at hname hnodup
  exact countP_eq_one_of_mem_flatMap (List.nodup_append.mp hnodup).2.1
    ((List.mem_append.mp hname).resolve_left hnew)

/-- Of any two snapshots one is the front of the other. -/
theorem comparable {a b : Snapshot} (ha : a ∈ s.snapshots) (hb : b ∈ s.snapshots) :
    a.IsPrefix b ∨ b.IsPrefix a := by
  have hself : ∀ c ∈ s.snapshots, c.IsPrefix c ∨ c.IsPrefix c :=
    fun _ _ => Or.inl fun _ => List.prefix_refl _
  exact List.Pairwise.forall_of_forall_of_flip hself (h.chain.imp Or.inl) (h.chain.imp Or.inr) ha hb

end Accounted

/-- **Clients lose nothing to each other.** At a desk whose context inserts built, in whatever order
the calls of any clients are served:
* every client's calls are served in its order, each once;
* no list ever holds a name twice, and when all calls are served a list holds, in some order, what
  it held at the start and what the analyzed sources declare;
* behind what it held at the start a list holds the names that the replies count, so the counts add
  up to its growth, and every new name is counted by exactly one reply;
* of any two snapshots that were given to clients, one is in all lists the front of the other;
* the snapshot in the reply to an analysis holds all that its source declares. -/
theorem clients_lose_nothing (catalog : Catalog) (inserts : List (Kind × String))
    (programs : ι → List Call) (s : State ι)
    (hs : Reach { catalog, context := .ofInserts inserts } programs s) :
    let start : Desk := { catalog, context := .ofInserts inserts }
    (∀ client, s.served client ++ s.pending client = programs client) ∧
      (∀ kind, (s.names kind).Nodup) ∧
      ((∀ client, s.pending client = []) → ∀ kind name, name ∈ s.names kind ↔
        name ∈ start.context.names kind ∨
          ∃ client source, Call.analyze source ∈ programs client ∧ name ∈ kind.scan source) ∧
      (∀ kind, s.names kind =
        start.context.names kind ++ s.log.flatMap (·.reply.counted kind)) ∧
      (∀ kind, (s.names kind).length =
        (start.context.names kind).length + (s.log.map (·.reply.growth.count kind)).sum) ∧
      (∀ e ∈ s.log, ∀ kind, (e.reply.counted kind).length = e.reply.growth.count kind) ∧
      (∀ kind, ∀ name ∈ s.names kind, name ∉ start.context.names kind →
        s.log.countP (fun e => name ∈ e.reply.counted kind) = 1) ∧
      (∀ a ∈ s.snapshots, ∀ b ∈ s.snapshots, a.IsPrefix b ∨ b.IsPrefix a) ∧
      ∀ e ∈ s.log, ∀ source, e.call = .analyze source →
        ∃ growth snapshot, e.reply = .analyzed growth snapshot ∧
          ∀ kind, ∀ name ∈ kind.scan source, name ∈ snapshot.names kind := by
  intro start
  have h : Accounted start programs s :=
    accounted_of_reach (Context.distinct_ofInserts inserts) hs
  refine ⟨h.order, h.distinct, fun hdone kind name => ⟨h.exists_scan_of_mem, ?_⟩, h.names_eq,
    h.length_names, fun e he kind => h.length_counted he kind, fun kind name => h.countP_counted,
    fun a ha b hb => h.comparable ha hb, fun e he source => h.exists_snapshot he⟩
  rintro (hstart | ⟨client, source, hcall, hscan⟩)
  · rw [h.names_eq]
    exact List.mem_append_left _ hstart
  · have horder := h.order client
    rw [hdone client, List.append_nil] at horder
    exact h.mem_of_served (horder ▸ hcall) hscan

/-- Two clients declare the same function, and one of them reads the context afterwards. -/
theorem clients_lose_nothing_common_function :
    let programs : Bool → List Call := fun client =>
      if client then [.analyze "fun common() {} fun a() {}"]
      else [.analyze "fun common() {} fun b() {}", .read [.context] (by decide)]
    ∃ s : State Bool, Reach { catalog := .builtins, context := .ofInserts [] } programs s ∧
      (∀ client, s.pending client = []) ∧ s.names .functions = ["common", "b", "a"] ∧
      s.log.countP (fun e => "common" ∈ e.reply.counted .functions) = 1 := by
  intro programs
  let start : State Bool :=
    { desk := { catalog := .builtins, context := .ofInserts [] }, pending := programs }
  let first := start.serve false (.analyze "fun common() {} fun b() {}")
    [.read [.context] (by decide)]
  let second := first.serve true (.analyze "fun common() {} fun a() {}") []
  let third := second.serve false (.read [.context] (by decide)) []
  have hfirst : Reach start.desk programs first := Relation.ReflTransGen.refl.tail (.serve rfl)
  have hsecond : Reach start.desk programs second := hfirst.tail (.serve rfl)
  have hthird : Reach start.desk programs third := hsecond.tail (.serve rfl)
  have hnames : third.names .functions = ["common", "b", "a"] := by decide +kernel
  obtain ⟨-, -, -, -, -, -, hcount, -⟩ := clients_lose_nothing .builtins [] programs third hthird
  refine ⟨third, hthird, by decide +kernel, hnames, hcount .functions "common" ?_ ?_⟩
  · rw [hnames]
    exact List.mem_cons_self
  · exact List.not_mem_nil

end Clients

end MoveDesk
