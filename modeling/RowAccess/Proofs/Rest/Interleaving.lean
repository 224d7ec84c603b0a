import RowAccess.Proofs.Rest.Contest
import RowAccess.Proofs.Visibility.TierTable

/-!
# Updates that interleave

After every schedule of a contest the writes form a chain of versions: this is an invariant of its
steps. So the header `If-Match` keeps its promise exactly on those schedules on which no write came
between the two halves of another one, as when the requests are answered one after the other. The
module ends with a schedule of two requests on which an update is lost.
-/

namespace RowAccess

namespace Contest

variable {ι : Type}

/-! ## What every schedule keeps -/

/-- The row has the latest version of the chain, and every request knows what it should: one that is
prepared has read the version it expects, one that was answered with a success has written once. -/
structure Consistent (c : Contest ι) (st : State ι) : Prop where
  current : ∃ found, st.store.get c.model.key c.id = .ok (some found) ∧
    (RowWrite.versions c.row.version st.writes)[st.writes.length]? = some found.version
  prepared : ∀ i n row seen, st.progress i = .prepared n row seen → n = c.id ∧
    row.version = c.expected i + 1 ∧ seen ≤ st.writes.length ∧
    (RowWrite.versions c.row.version st.writes)[seen]? = some (c.expected i)
  chain : RowWrite.Chain c.expected c.row.version st.writes
  answered : ∀ w ∈ st.writes, ∃ response, st.progress w.request = .answered response ∧
    response.status = 200 ∧ response.etag = some (EntityTag.ofVersion w.returned)
  written : ∀ i response, st.progress i = .answered response → response.status < 400 →
    i ∈ st.writes.map RowWrite.request
  once : (st.writes.map RowWrite.request).Nodup

variable {c : Contest ι} {st : State ι} {i : ι}

theorem consistent_start (c : Contest ι) : c.Consistent c.start where
  current := ⟨c.row, c.present, rfl⟩
  prepared _ _ _ _ h := nomatch h
  chain _ _ h := nomatch h
  answered _ hw := absurd hw List.not_mem_nil
  written _ _ h := nomatch h
  once := .nil

theorem Consistent.not_mem_of_not_answered (h : c.Consistent st)
    (hi : ∀ response, st.progress i ≠ .answered response) :
    ∀ w ∈ st.writes, w.request ≠ i := by
  rintro w hw rfl
  obtain ⟨response, hanswered, -⟩ := h.answered w hw
  exact hi response hanswered

theorem Consistent.succeeded_iff (h : c.Consistent st) (i : ι) :
    st.Succeeded i ↔ i ∈ st.writes.map RowWrite.request := by
  constructor
  · rintro ⟨response, hanswered, -, hstatus⟩
    exact h.written i response hanswered (by omega)
  · intro hi
    obtain ⟨w, hw, rfl⟩ := List.mem_map.mp hi
    obtain ⟨response, hanswered, hstatus, -⟩ := h.answered w hw
    exact ⟨response, hanswered, by omega, by omega⟩

variable [DecidableEq ι]

theorem Consistent.answered_advance (h : c.Consistent st)
    (hi : ∀ response, st.progress i ≠ .answered response) (p : Progress) :
    ∀ w ∈ st.writes, ∃ response, (st.advance i p).progress w.request = .answered response ∧
      response.status = 200 ∧ response.etag = some (EntityTag.ofVersion w.returned) := by
  intro w hw
  rw [State.progress_advance, if_neg (h.not_mem_of_not_answered hi w hw)]
  exact h.answered w hw

theorem Consistent.fail (h : c.Consistent st)
    (hi : ∀ response, st.progress i ≠ .answered response) (f : Fault) :
    c.Consistent (st.advance i (.answered (.ofFault f))) where
  current := h.current
  prepared j n row seen hj := by
    rw [State.progress_advance] at hj
    split at hj
    · exact nomatch hj
    · exact h.prepared j n row seen hj
  chain := h.chain
  answered := h.answered_advance hi _
  written j response hj hstatus := by
    rw [State.progress_advance] at hj
    split at hj
    · obtain rfl := Progress.answered.inj hj
      have hfault : f.status < 400 := hstatus
      have := f.status_ge
      omega
    · exact h.written j response hj hstatus
  once := h.once

/-- A request that is prepared has found the latest version in the row. -/
theorem Consistent.prepare (h : c.Consistent st) (hi : st.progress i = .waiting) {n : Int}
    {row : Row} (hprepare : (c.requests i).prepare st.store c.model = .ok (n, row)) :
    c.Consistent (st.advance i (.prepared n row st.writes.length)) where
  current := h.current
  prepared j n' row' seen hj := by
    rw [State.progress_advance] at hj
    split at hj
    · next hji =>
      obtain ⟨rfl, rfl, rfl⟩ := Progress.prepared.inj hj
      obtain ⟨hn, hrow, found, hfound, hversion⟩ := (c.requests i).version_of_prepare hprepare
      obtain ⟨latest, hlatest, hcurrent⟩ := h.current
      -- The row that was read is the stored one, so it has the last version of the chain.
      have hsame : latest = found := Option.some.inj (Except.ok.inj (hlatest.symm.trans hfound))
      rw [hsame, hversion] at hcurrent
      rw [hji]
      exact ⟨hn, hrow, Nat.le_refl _, hcurrent⟩
    · exact h.prepared j n' row' seen hj
  chain := h.chain
  answered := h.answered_advance (State.ne_answered_of_waiting hi) _
  written j response hj hstatus := by
    rw [State.progress_advance] at hj
    split at hj
    · exact nomatch hj
    · exact h.written j response hj hstatus
  once := h.once

/-- A write that follows the ones before it, and is stored and answered so, may be recorded. -/
theorem Consistent.record (h : c.Consistent st) {w : RowWrite ι} {response : Response}
    {store : Store} (hi : ∀ response, st.progress w.request ≠ .answered response)
    (hw : RowWrite.Follows c.expected c.row.version st.writes st.writes.length w)
    (hstatus : response.status = 200) (htag : response.etag = some (EntityTag.ofVersion w.returned))
    (hstored : ∃ stored, store.get c.model.key c.id = .ok (some stored) ∧
      stored.version = w.returned) : c.Consistent (st.record w response store) where
  current := by
    obtain ⟨stored, hget, hversion⟩ := hstored
    have hlast : (st.writes ++ [w])[st.writes.length]? = some w := List.getElem?_concat_length
    refine ⟨stored, hget, ?_⟩
    rw [hversion, State.record, List.length_append, List.length_singleton]
    exact RowWrite.getElem?_versions_succ hlast
  prepared j n row seen hj := by
    change (st.advance w.request (.answered response)).progress j = _ at hj
    rw [State.progress_advance] at hj
    split at hj
    · exact nomatch hj
    · obtain ⟨hn, hrow, hseen, hfound⟩ := h.prepared j n row seen hj
      have hlength : st.writes.length ≤ (st.writes ++ [w]).length := by
        rw [List.length_append]
        exact Nat.le_add_right _ _
      exact ⟨hn, hrow, Nat.le_trans hseen hlength, RowWrite.getElem?_versions_append w hfound⟩
  chain := h.chain.append hw
  answered w' hw' := by
    rcases List.mem_append.mp hw' with hw' | hw'
    · exact h.answered_advance hi _ w' hw'
    · obtain rfl := List.mem_singleton.mp hw'
      exact ⟨response, st.progress_advance_self _ _, hstatus, htag⟩
  written j response' hj hstatus' := by
    change (st.advance w.request (.answered response)).progress j = _ at hj
    change j ∈ (st.writes ++ [w]).map RowWrite.request
    rw [State.progress_advance] at hj
    rw [List.map_append, List.mem_append]
    split at hj
    · next hjw => exact .inr (List.mem_singleton.mpr hjw)
    · exact .inl (h.written j response' hj hstatus')
  once := by
    change ((st.writes ++ [w]).map RowWrite.request).Nodup
    rw [List.map_append, List.map_singleton, List.nodup_append]
    refine ⟨h.once, List.pairwise_singleton _ _, fun j hj k hk ↦ ?_⟩
    obtain ⟨w', hw', rfl⟩ := List.mem_map.mp hj
    rw [List.mem_singleton.mp hk]
    exact h.not_mem_of_not_answered hi w' hw'

/-- A request that writes goes over the latest version, whichever one it has read. -/
theorem Consistent.write (h : c.Consistent st) {n : Int} {row : Row} {seen : Nat}
    (hi : st.progress i = .prepared n row seen) : c.Consistent (c.write st i n row seen) := by
  have hwaits := State.ne_answered_of_prepared hi
  rw [Contest.write]
  cases hcommit : st.store.commitChange c.model (c.requests i).path n row with
  | error f => exact h.fail hwaits f
  | ok outcome =>
    obtain ⟨hn, hrow, hseen, hfound⟩ := h.prepared i n row seen hi
    obtain ⟨latest, hlatest, hcurrent⟩ := h.current
    obtain ⟨hstatus, htag, hstored⟩ := Store.of_commitChange hcommit
    have hreplaced : st.store.versionAt c.model.key n = latest.version := by
      rw [Store.versionAt, hn, hlatest]
    refine h.record hwaits ⟨hseen, hfound, ?_, hrow⟩ hstatus htag (hn ▸ hstored)
    rw [hcurrent, hreplaced]

theorem Consistent.step (h : c.Consistent st) (i : ι) : c.Consistent (c.step st i) := by
  cases hi : st.progress i with
  | waiting =>
    rw [step_of_waiting hi, read]
    cases hprepare : (c.requests i).prepare st.store c.model with
    | error f => exact h.fail (State.ne_answered_of_waiting hi) f
    | ok prepared => exact h.prepare hi hprepare
  | prepared n row seen =>
    rw [step_of_prepared hi]
    exact h.write hi
  | answered response =>
    rw [step_of_answered hi]
    exact h

theorem consistent_run (c : Contest ι) (schedule : List ι) : c.Consistent (c.run schedule) :=
  List.foldlRecOn schedule c.step c.consistent_start fun _ hst i _ ↦ hst.step i

/-! ## Requests one after the other -/

/-- No request is between its two halves, and the writes so far were in turn. -/
structure Settled (st : State ι) : Prop where
  unprepared : ∀ i n row seen, st.progress i ≠ .prepared n row seen
  inTurn : RowWrite.InTurn st.writes

theorem Settled.answer (h : Settled st) (i : ι) (response : Response) :
    Settled (st.advance i (.answered response)) where
  unprepared j n row seen hj := by
    rw [State.progress_advance] at hj
    split at hj
    · exact nomatch hj
    · exact h.unprepared j n row seen hj
  inTurn := h.inTurn

/-- A request that takes both of its steps at once leaves the contest settled. -/
theorem Settled.step_step (h : Settled st) (c : Contest ι) (i : ι) :
    Settled (c.step (c.step st i) i) := by
  cases hi : st.progress i with
  | waiting =>
    rw [step_of_waiting hi, read]
    cases (c.requests i).prepare st.store c.model with
    | error f =>
      dsimp only
      rw [step_of_answered (st.progress_advance_self i _)]
      exact h.answer i _
    | ok prepared =>
      dsimp only
      rw [step_of_prepared (st.progress_advance_self i _), Contest.write]
      split
      · next response store _ =>
        have hanswered := (h.answer i response).unprepared
        rw [← st.advance_advance i (.prepared prepared.1 prepared.2 st.writes.length)] at hanswered
        exact ⟨hanswered, h.inTurn.append rfl⟩
      · rw [State.advance_advance]
        exact h.answer i _
  | prepared n row seen => exact absurd hi (h.unprepared i n row seen)
  | answered response =>
    rw [step_of_answered hi, step_of_answered hi]
    exact h

theorem inTurn_run_flatMap (c : Contest ι) (requests : List ι) :
    RowWrite.InTurn (c.run (requests.flatMap fun i ↦ [i, i])).writes := by
  have hstart : Settled c.start :=
    ⟨fun _ _ _ _ h ↦ (nomatch h), fun _ _ h ↦ (nomatch h)⟩
  have hrun : Settled (requests.foldl (fun st i ↦ c.step (c.step st i) i) c.start) :=
    List.foldlRecOn requests _ hstart fun st hst i _ ↦ hst.step_step c i
  rw [run, List.foldl_flatMap]
  exact hrun.inTurn

/-! ## Requests in any order -/

/-- After every schedule, the requests that succeeded are the ones that wrote, each one once, and
they were answered with the tags of the versions they made. That each one wrote over the version it
expected, that no two of them expected the same version, and that no two of them made the same
version: each of these holds exactly if no write came between the two halves of another one. -/
theorem run_loses_no_update_iff (c : Contest ι) (schedule : List ι) :
    let st := c.run schedule
    (∀ i, st.Succeeded i ↔ i ∈ st.writes.map RowWrite.request) ∧
      (st.writes.map RowWrite.request).Nodup ∧
      (∀ w ∈ st.writes, ∃ response, st.progress w.request = .answered response ∧
        response.etag = some (EntityTag.ofVersion w.returned)) ∧
      ((∀ w ∈ st.writes, w.replaced = c.expected w.request) ↔ RowWrite.InTurn st.writes) ∧
      ((RowWrite.expectations c.expected st.writes).Nodup ↔ RowWrite.InTurn st.writes) ∧
      ((st.writes.map RowWrite.returned).Nodup ↔ RowWrite.InTurn st.writes) := by
  intro st
  have h : c.Consistent st := c.consistent_run schedule
  refine ⟨h.succeeded_iff, h.once, ?_, h.chain.replaced_eq_iff_inTurn,
    h.chain.nodup_expectations_iff_inTurn, h.chain.nodup_returned_iff_inTurn⟩
  intro w hw
  obtain ⟨response, hanswered, -, htag⟩ := h.answered w hw
  exact ⟨response, hanswered, htag⟩

end Contest

/-! ## A lost update -/

namespace Notes

/-- The first version of a note of the user `7`. -/
def versioned : Row := noteOf 1 7 1 |>.insert "version_number" (.int 1)

/-- A user who may change notes hands a note over, if it still has its first version. -/
def handover (owner : Int) : ExpectingUpdate 1 where
  mode := .patch
  requester := .ok (.user ⟨7, "ada", none, [], ["core.change_note"]⟩)
  headers := [("if-match", EntityTag.ofVersion 1)]
  now := ⟨0, 0⟩
  path := "1"
  body := .object [("owner", .int owner)]
  tags := EntityTag.ofVersion 1
  expected := 1
  addresses := by decide +kernel
  tagged := by
    have hfirst : Headers.first? [("if-match", EntityTag.ofVersion 1)] "if-match"
        = some (EntityTag.ofVersion 1) := by decide +kernel
    rw [Headers.text?, hfirst]
    exact if_pos (by decide +kernel)
  names _ := EntityTag.names_ofVersion_iff
  bounded := by decide

/-- A note is to be handed over to one user, and to another one. -/
def handovers : Contest Bool where
  store := {
    registry
    tables := [(project.key, ⟨[], by decide⟩), (note.key, ⟨[(1, versioned)], by decide⟩)]
    covers := rfl }
  model := note
  id := 1
  requests second := handover (if second then 9 else 8)
  row := versioned
  present := rfl

/-- Both requests succeed with the same tag, the second one over a version it did not expect. -/
theorem handovers_lose_update :
    let st := handovers.run [false, true, false, true]
    st.writes = [⟨false, 0, 1, 2⟩, ⟨true, 0, 2, 2⟩] ∧ st.Succeeded false ∧ st.Succeeded true ∧
      handovers.expected true = 1 ∧ ¬ RowWrite.InTurn st.writes := by
  intro st
  have hwrites : st.writes = [⟨false, 0, 1, 2⟩, ⟨true, 0, 2, 2⟩] := by decide +kernel
  have hconsistent : handovers.Consistent st := handovers.consistent_run _
  have hsucceeded (i : Bool) (hi : i ∈ st.writes.map RowWrite.request) : st.Succeeded i :=
    (hconsistent.succeeded_iff i).mpr hi
  rw [hwrites] at hsucceeded
  refine ⟨hwrites, hsucceeded false (by decide), hsucceeded true (by decide), rfl, ?_⟩
  intro hturn
  have hseen : 0 = 1 := hturn 1 ⟨true, 0, 2, 2⟩ (by rw [hwrites]; rfl)
  exact absurd hseen (by decide)

end Notes

end RowAccess
