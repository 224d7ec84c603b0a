import RowAccess.Proofs.Audit
import RowAccess.Proofs.Rest.EntityTag
import RowAccess.Proofs.Rest.VersionChain
import RowAccess.Proofs.Rest.Writes

/-!
# Contests between updates

An update uses the store twice: it reads the row, works out what to store and checks the header
`If-Match` against the version it has read, and then it writes. Requests that are answered at the
same time may use the store in any order between their two uses, and nothing is checked again when
a request writes.

A contest is a set of update requests for one row, each of which expects one version. It is run
along a schedule, which says whose turn it is, and remembers every write of the row.
-/

namespace RowAccess

/-! ## The two halves of an update -/

namespace Store

/-- The first half of an update: the row to store is worked out from the row that is read. -/
def prepareChange (s : Store) (m : Model) (mode : UpdateMode) (requester : Except Fault Identity)
    (headers : Headers) (now : Instant) (id : String) (body : Json) :
    Except Fault (Int × Row) := do
  let (n, found) ← s.rowOf m id
  let row ← m.updatedRow mode requester headers now found body
  return (n, row)

/-- The second half of an update: the row is stored, if there still is one in its place. -/
def commitChange (s : Store) (m : Model) (id : String) (n : Int) (row : Row) :
    Except Fault (Response × Store) := do
  let (stored, s) ← s.commit m id n row
  return ({
    status := 200
    etag := some (EntityTag.ofVersion row.version)
    content := .json stored.toJson }, s)

theorem change_eq_prepare_commit (s : Store) (m : Model) (mode : UpdateMode)
    (requester : Except Fault Identity) (headers : Headers) (now : Instant) (id : String)
    (body : Json) :
    s.change m mode requester headers now id body = (do
      let (n, row) ← s.prepareChange m mode requester headers now id body
      s.commitChange m id n row) := by
  rw [change, prepareChange]
  cases s.rowOf m id with
  | error f => rfl
  | ok found =>
    simp only [bind, Except.bind]
    cases m.updatedRow mode requester headers now found.2 body <;> rfl

/-- The version of the row under an id. -/
def versionAt (s : Store) (key : ModelKey) (id : Int) : Int :=
  match s.get key id with
  | .ok (some row) => row.version
  | _ => 0

end Store

/-! ## Contests -/

/-- An update request for the row with a certain id, with a header that names one version. -/
structure ExpectingUpdate (id : Int) where
  mode : UpdateMode
  requester : Except Fault Identity
  headers : Headers
  now : Instant
  /-- The id of the row in the path. -/
  path : String
  body : Json
  /-- The tags in the header. -/
  tags : String
  /-- The version that the tags name. -/
  expected : Int
  addresses : Text.readInt64? path = some id
  tagged : headers.text? "if-match" = .ok (some tags)
  names : ∀ version, EntityTag.names tags version = true ↔ version = expected
  /-- The version can be counted on within 64 bits. -/
  bounded : expected < Text.int64Max

namespace ExpectingUpdate

variable {id : Int}

/-- The first half of the request. -/
def prepare (u : ExpectingUpdate id) (s : Store) (m : Model) : Except Fault (Int × Row) :=
  s.prepareChange m u.mode u.requester u.headers u.now u.path u.body

/-- The request as the service answers it. -/
def change (u : ExpectingUpdate id) (s : Store) (m : Model) : Except Fault (Response × Store) :=
  s.change m u.mode u.requester u.headers u.now u.path u.body

/-- An update that passes its checks has read the version it expects, and makes the next one. -/
theorem version_of_prepare (u : ExpectingUpdate id) {s : Store} {m : Model} {n : Int}
    {row : Row} (h : u.prepare s m = .ok (n, row)) :
    n = id ∧ row.version = u.expected + 1 ∧
      ∃ found, s.get m.key id = .ok (some found) ∧ found.version = u.expected := by
  rw [prepare, Store.prepareChange] at h
  obtain ⟨⟨n', found⟩, hrow, h⟩ := Outcome.bind_eq_ok_iff.mp h
  obtain ⟨row', hupdated, hpair⟩ := Outcome.bind_eq_ok_iff.mp h
  obtain ⟨rfl, rfl⟩ := Prod.mk.inj (Except.ok.inj hpair)
  obtain ⟨hread, hfound⟩ := Store.rowOf_eq_ok_iff.mp hrow
  obtain rfl : id = n' := Option.some.inj (u.addresses.symm.trans hread)
  have hnext := Model.get?_version_of_updatedRow hupdated
  rw [Model.updatedRow] at hupdated
  obtain ⟨identity, -, hupdated⟩ := Outcome.bind_eq_ok_iff.mp hupdated
  obtain ⟨-, hupdated⟩ := Outcome.check_bind_eq_ok_iff.mp hupdated
  obtain ⟨hcheck, -⟩ := Outcome.check_bind_eq_ok_iff.mp hupdated
  have hversion : found.version = u.expected :=
    (u.names _).mp ((EntityTag.check_eq_ok_iff u.tagged _).mp hcheck)
  have hrange : Text.isInt64 (u.expected + 1) = true := by
    have hold := found.isInt64_version
    have hbound := u.bounded
    rw [hversion] at hold
    simp only [Text.isInt64, Bool.and_eq_true, decide_eq_true_eq] at hold ⊢
    omega
  exact ⟨rfl, Row.version_eq_of_get? hrange (hversion ▸ hnext), found, hfound, hversion⟩

end ExpectingUpdate

theorem Store.of_commitChange {s s' : Store} {m : Model} {id : String} {n : Int} {row : Row}
    {response : Response} (h : s.commitChange m id n row = .ok (response, s')) :
    response.status = 200 ∧ response.etag = some (EntityTag.ofVersion row.version) ∧
      ∃ stored, s'.get m.key n = .ok (some stored) ∧ stored.version = row.version := by
  rw [commitChange] at h
  obtain ⟨⟨stored, t⟩, hcommit, h⟩ := Outcome.bind_eq_ok_iff.mp h
  obtain ⟨rfl, rfl⟩ := Prod.mk.inj (Except.ok.inj h)
  obtain ⟨rfl, before, hchanges⟩ := changesOnly_of_commit hcommit
  obtain ⟨_, t', -, ht', -, hafter, -⟩ := hchanges.rows
  refine ⟨rfl, rfl, _, get_eq_ok_iff.mpr ⟨t', ht', hafter⟩, ?_⟩
  exact Row.version_congr (by rw [Ordered.get?_insert, if_neg (by decide)])

/-- Several update requests for one row of a store. -/
structure Contest (ι : Type) where
  store : Store
  model : Model
  id : Int
  requests : ι → ExpectingUpdate id
  row : Row
  present : store.get model.key id = .ok (some row)

/-- How far a request has come. -/
inductive Progress where
  | waiting
  /-- The request has read the row, after a number of writes, and knows what to store. -/
  | prepared (n : Int) (row : Row) (seen : Nat)
  | answered (response : Response)

namespace Contest

variable {ι : Type}

/-- The state of a contest: the store, how far the requests have come, and the writes so far. -/
structure State (ι : Type) where
  store : Store
  progress : ι → Progress
  writes : List (RowWrite ι)

def State.Succeeded (st : State ι) (i : ι) : Prop :=
  ∃ response, st.progress i = .answered response ∧ 200 ≤ response.status ∧ response.status < 300

theorem State.ne_answered_of_waiting {st : State ι} {i : ι} (h : st.progress i = .waiting)
    (response : Response) : st.progress i ≠ .answered response := by
  intro e
  rw [h] at e
  cases e

theorem State.ne_answered_of_prepared {st : State ι} {i : ι} {n : Int} {row : Row} {seen : Nat}
    (h : st.progress i = .prepared n row seen) (response : Response) :
    st.progress i ≠ .answered response := by
  intro e
  rw [h] at e
  cases e

/-- The version that a request expects. -/
def expected (c : Contest ι) (i : ι) : Int := (c.requests i).expected

def start (c : Contest ι) : State ι := ⟨c.store, fun _ ↦ .waiting, []⟩

section Steps

variable [DecidableEq ι] {c : Contest ι} {st : State ι} {i : ι} {n : Int} {row : Row} {seen : Nat}

def State.advance (st : State ι) (i : ι) (p : Progress) : State ι :=
  { st with progress := fun j ↦ if j = i then p else st.progress j }

/-- The state after a request has written the row, and is answered. -/
def State.record (st : State ι) (w : RowWrite ι) (response : Response) (store : Store) : State ι :=
  { st.advance w.request (.answered response) with store, writes := st.writes ++ [w] }

/-- A request reads the row, and is prepared or answered with a fault. -/
def read (c : Contest ι) (st : State ι) (i : ι) : State ι :=
  match (c.requests i).prepare st.store c.model with
  | .ok (n, row) => st.advance i (.prepared n row st.writes.length)
  | .error f => st.advance i (.answered (.ofFault f))

/-- A request writes what it has prepared, and is answered. -/
def write (c : Contest ι) (st : State ι) (i : ι) (n : Int) (row : Row) (seen : Nat) : State ι :=
  match st.store.commitChange c.model (c.requests i).path n row with
  | .ok (response, store) =>
    st.record ⟨i, seen, st.store.versionAt c.model.key n, row.version⟩ response store
  | .error f => st.advance i (.answered (.ofFault f))

/-- A request takes its next step: it reads, or it writes, or there is nothing left to do. -/
def step (c : Contest ι) (st : State ι) (i : ι) : State ι :=
  match st.progress i with
  | .waiting => c.read st i
  | .prepared n row seen => c.write st i n row seen
  | .answered _ => st

def run (c : Contest ι) (schedule : List ι) : State ι := schedule.foldl c.step c.start

theorem State.progress_advance (st : State ι) (i j : ι) (p : Progress) :
    (st.advance i p).progress j = if j = i then p else st.progress j := rfl

theorem State.progress_advance_self (st : State ι) (i : ι) (p : Progress) :
    (st.advance i p).progress i = p := if_pos rfl

theorem State.advance_advance (st : State ι) (i : ι) (p q : Progress) :
    (st.advance i p).advance i q = st.advance i q := by
  have hprogress (j : ι) :
      ((st.advance i p).advance i q).progress j = (st.advance i q).progress j := by
    rw [progress_advance, progress_advance, progress_advance]
    split <;> rfl
  exact congrArg (fun progress ↦ { st with progress }) (funext hprogress)

theorem step_of_waiting (h : st.progress i = .waiting) : c.step st i = c.read st i := by
  unfold step
  rw [h]

theorem step_of_prepared (h : st.progress i = .prepared n row seen) :
    c.step st i = c.write st i n row seen := by
  unfold step
  rw [h]

theorem step_of_answered {response : Response} (h : st.progress i = .answered response) :
    c.step st i = st := by
  unfold step
  rw [h]

/-- A request that is not interrupted is answered as the service answers it. -/
theorem step_step_of_waiting (h : st.progress i = .waiting) :
    match (c.requests i).change st.store c.model with
    | .ok (response, store) =>
      (c.step (c.step st i) i).progress i = .answered response ∧
        (c.step (c.step st i) i).store = store
    | .error f =>
      (c.step (c.step st i) i).progress i = .answered (.ofFault f) ∧
        (c.step (c.step st i) i).store = st.store := by
  have hchange : (c.requests i).change st.store c.model = (do
      let (n, row) ← (c.requests i).prepare st.store c.model
      st.store.commitChange c.model (c.requests i).path n row) :=
    st.store.change_eq_prepare_commit _ _ _ _ _ _ _
  rw [hchange, step_of_waiting h, read]
  cases (c.requests i).prepare st.store c.model with
  | error f =>
    dsimp only
    rw [step_of_answered (st.progress_advance_self i _)]
    exact ⟨st.progress_advance_self i _, rfl⟩
  | ok prepared =>
    dsimp only
    rw [step_of_prepared (st.progress_advance_self i _), write]
    have hstore : (st.advance i (.prepared prepared.1 prepared.2 st.writes.length)).store
        = st.store := rfl
    simp only [hstore, bind, Except.bind]
    cases st.store.commitChange c.model (c.requests i).path prepared.1 prepared.2 with
    | error f => exact ⟨State.progress_advance_self _ i _, rfl⟩
    | ok outcome => exact ⟨State.progress_advance_self _ i _, rfl⟩

end Steps

end Contest

end RowAccess
