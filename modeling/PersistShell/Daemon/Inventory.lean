import PersistShell.Daemon.ControlClient
import PersistShell.Holder.Listing
import PersistShell.Holder.Script
import PersistShell.Ipc.OperationCodecs

/-! The inventory that the daemon reads in pages is the listing of the holder at one moment,
although the holder may change between the pages. -/

namespace PersistShell
open Program

/-- The fields of the sessions are values of their types. -/
def Runtime.Fits (r : Runtime) : Prop :=
  ∀ (s : SessionId) session, r.sessions[s]? = some session → (session.entry s).Fits

/-- What the daemon reads when the holder drops the connection. -/
def holderGone : Incoming := .error (.io "read holder control header" .connectionReset)

/-- A holder that may change between the requests: `between` is what it sends on its own before
it answers, `faults` the requests that cannot be written. -/
def served (holders : Nat → HolderServer) (between : Nat → List HolderFrame)
    (faults : Nat → Option Errno) : Answers := fun n frame =>
  match faults n with
  | some source => .error source
  | none =>
    .ok ((between n).map .ok ++
      [match (holders n).inventoryAnswer frame with
        | .ok answer => .ok answer
        | .error _ => holderGone])

section listings

variable {r : Runtime} {cursor limit : Nat}

theorem listing_sorted (r : Runtime) :
    r.listing.Pairwise fun a b => a.sessionId < b.sessionId := by
  unfold Runtime.listing
  rw [List.pairwise_map]
  refine List.Pairwise.imp ?_ (Std.ExtTreeMap.ordered_keys_toList (t := r.sessions))
  intro a b hlt
  exact Nat.compare_eq_lt.mp hlt

theorem mem_listing {r : Runtime} {l : Listed} (h : l ∈ r.listing) :
    ∃ session, r.sessions[l.sessionId]? = some session := by
  obtain ⟨e, he, rfl⟩ := List.mem_map.mp h
  exact ⟨e.2, Std.ExtTreeMap.mem_toList_iff_getElem?_eq_some.mp he⟩

/-- A page of the inventory is a page of the listing. -/
theorem entries_inventoryPage (h : HolderServer) (request : InventoryRequest) :
    (h.inventoryPage request).entries.map HolderSessionEntry.listed =
      Paging.page Listed.sessionId request.cursor request.limit h.runtime.listing := by
  have hpage : (Paging.page (fun e : SessionId × Session => e.1) request.cursor request.limit
      h.runtime.sessions.toList).map (fun e => e.2.listed e.1) =
      Paging.page Listed.sessionId request.cursor request.limit h.runtime.listing :=
    Paging.map_page fun _ => rfl
  rw [← hpage]
  simp only [HolderServer.inventoryPage, Runtime.inventory, List.map_map]
  rfl

theorem sessionId_of_getLast {h : HolderServer} {request : InventoryRequest} {next : Nat}
    (hnext : (h.inventoryPage request).nextCursor = some next) :
    ∃ l, (Paging.page Listed.sessionId request.cursor request.limit
      h.runtime.listing).getLast? = some l ∧ l.sessionId = next := by
  rw [← entries_inventoryPage]
  have hlast : (h.runtime.inventory request).entries.getLast?.map (fun entry => entry.sessionId) =
      some next := by
    change (if _ then none else _) = _ at hnext
    split at hnext
    · cases hnext
    · exact hnext
  obtain ⟨entry, hentry, hid⟩ := Option.map_eq_some_iff.mp hlast
  refine ⟨entry.listed, ?_, hid⟩
  simp only [HolderServer.inventoryPage, List.map_map, List.getLast?_map, hentry, Option.map_some]
  rfl

theorem drop_of_last {h : HolderServer} {request : InventoryRequest} (hlimit : 0 < request.limit)
    (hlast : (h.inventoryPage request).nextCursor = none) :
    (Paging.past Listed.sessionId request.cursor h.runtime.listing).drop request.limit = [] := by
  let matching := h.runtime.sessions.toList.filter fun entry => request.cursor < entry.1
  have hpast : (Paging.past (fun e : SessionId × Session => e.1) request.cursor
      h.runtime.sessions.toList).map (fun e => e.2.listed e.1) =
      Paging.past Listed.sessionId request.cursor h.runtime.listing :=
    Paging.map_past fun _ => rfl
  have hdrop : matching.drop request.limit = [] := by
    by_contra hmore
    have hnone : ((matching.take request.limit).map fun entry => entry.2.entry entry.1).getLast?.map
        (fun entry => entry.sessionId) = none := by
      change (if matching.drop request.limit = [] then none else _) = _ at hlast
      rw [if_neg hmore] at hlast
      exact hlast
    rw [Option.map_eq_none_iff, List.getLast?_eq_none_iff, List.map_eq_nil_iff,
      List.take_eq_nil_iff] at hnone
    rcases hnone with hzero | hnil
    · omega
    · rw [hnil, List.drop_nil] at hmore
      exact hmore rfl
  rw [← hpast, ← List.map_drop]
  exact congrArg (List.map fun e : SessionId × Session => e.2.listed e.1) hdrop

end listings

namespace ControlClient

variable [SerdeJson]

section ends

variable (answers : Answers)

/-- Reading takes what has arrived, so that a request ends. -/
theorem receive_ends (requestId : Nat) (responseType : HolderMessageType) (fuel : Nat) :
    Triple (fun c : ControlClient => c.incoming.length < fuel)
      (receive requestId responseType fuel) (fun _ _ => True) (fun _ _ => True) := by
  induction fuel with
  | zero => exact .of_false fun c hc => Nat.not_lt_zero _ hc
  | succ fuel ih =>
    have hread : Triple (fun c : ControlClient => c.incoming.length < fuel + 1) readFrame
        (fun _ c => c.incoming.length < fuel) (fun _ _ => True) := by
      intro c hc
      unfold readFrame
      cases hincoming : c.incoming with
      | nil =>
        simp only [bind_apply, read_apply, hincoming, fail_apply]
      | cons first rest =>
        rw [hincoming, List.length_cons] at hc
        simp only [bind_apply, read_apply, hincoming, update_apply]
        cases first with
        | ok frame => exact Nat.lt_of_succ_lt_succ hc
        | error e => trivial
    refine .bind hread fun response => ?_
    have hobserve : ∀ generation, Keeps (fun c : ControlClient => c.incoming.length < fuel)
        (observeGeneration generation) := fun generation =>
      Keeps.bind (Keeps.read _) fun _ => Keeps.bind (Keeps.reject _ _) fun _ =>
        Keeps.update fun _ => id
    have hkeep : Keeps (fun c : ControlClient => c.incoming.length < fuel) (keepEvent response) := by
      refine Keeps.bind (Keeps.reject _ _) fun _ => Keeps.bind (Keeps.read _) fun c => ?_
      refine Keeps.bind (Keeps.reject _ _) fun _ => Keeps.bind (hobserve _) fun _ => ?_
      exact Keeps.bind (Keeps.read _) fun _ => Keeps.bind (Keeps.reject _ _) fun _ =>
        Keeps.update fun _ => id
    split
    · exact .bind ((hobserve _).conseq (fun _ => id) (fun _ _ => id) fun _ _ _ => trivial)
        fun _ => .pure fun _ _ => trivial
    · exact .bind (hkeep.conseq (fun _ => id) (fun _ _ => id) fun _ _ _ => trivial) fun _ => ih

theorem request_ends (requestType responseType : HolderMessageType) (payload : Bytes) :
    Triple (fun _ => True) (request answers requestType responseType payload)
      (fun _ _ => True) (fun _ _ => True) := by
  refine .bind (.read (Q := fun _ _ => True) fun _ _ => trivial) fun c => ?_
  refine .bind (.update (Q := fun _ _ => True) fun _ _ => trivial) fun _ => ?_
  refine .bind (Keeps.reject _ _) fun _ => ?_
  have hwrite : ∀ frame, Keeps (fun _ => True) (writeRequest answers frame) := by
    intro frame
    refine Keeps.bind (Keeps.read _) fun c => Keeps.bind (Keeps.lift _) fun _ => ?_
    cases answers c.written frame with
    | error source => exact Keeps.fail _
    | ok arrived => exact Keeps.update fun _ => id
  refine .bind (hwrite _) fun _ => ?_
  refine .bind (.read (Q := fun incoming c => c.incoming = incoming) fun _ _ => rfl)
    fun incoming => ?_
  refine (receive_ends _ _ _).pre fun c hc => ?_
  rw [hc]
  exact Nat.lt_succ_self _

/-- The cursor grows with every page, so that the paging loop ends. -/
theorem pageLoop_ends (fuel cursor : Nat) (entries : List HolderSessionEntry)
    (generation : Option Nat) (hfuel : 2 ^ 32 ≤ cursor + fuel) (hcursor : cursor < 2 ^ 32) :
    Triple (fun _ => True) (pageLoop answers fuel cursor entries generation)
      (fun _ _ => True) (fun _ _ => True) := by
  induction fuel generalizing cursor entries generation with
  | zero => omega
  | succ fuel ih =>
    refine .bind (request_ends answers _ _ _) fun frame => ?_
    refine .bind (Q := fun response _ => decodeInventoryResponse frame.payload = .ok response)
      (.lift ?_ fun _ _ _ _ => trivial) fun response => ?_
    · intro response hdecode _ _
      cases hresult : decodeInventoryResponse frame.payload with
      | error e => rw [hresult] at hdecode; cases hdecode
      | ok r => rw [hresult] at hdecode; cases hdecode; rfl
    · split
      · exact .pure fun _ _ => trivial
      · cases hnext : response.nextCursor with
        | none =>
          refine .bind (.update (Q := fun _ _ => True) fun _ _ => trivial) fun _ => ?_
          exact .bind (.read (Q := fun _ _ => True) fun _ _ => trivial) fun _ => .pure fun _ _ => trivial
        | some next =>
          refine Triple.each fun c hdecode => ?_
          have hlt := nextCursor_of_decode hdecode hnext
          dsimp only
          by_cases hgrows : next ≤ cursor
          · rw [rejectIf, if_pos hgrows]
            exact .bind (.fail (Q := fun _ _ => False) fun _ _ => trivial) fun _ =>
              .of_false fun _ => id
          · rw [rejectIf, if_neg hgrows]
            refine .bind (.pure (Q := fun _ _ => True) fun _ _ => trivial) fun _ => ?_
            exact ih next _ _ (by omega) hlt

theorem attempts_end (count : Nat) :
    Triple (fun _ => True) (attempts answers count) (fun _ _ => True) (fun _ _ => True) := by
  induction count with
  | zero => exact .fail fun _ _ => trivial
  | succ count ih =>
    refine .bind (pageLoop_ends answers _ 0 [] none (by omega) (by omega)) fun r => ?_
    cases r with
    | none => exact ih
    | some snapshot => exact .pure fun _ _ => trivial

end ends

section returns

/-- What has arrived are events. -/
def Clean (c : ControlClient) : Prop :=
  ∃ events : List HolderFrame, c.incoming = events.map .ok ∧ ∀ f ∈ events, f.requestId = 0

omit [SerdeJson] in
theorem readFrame_first {c : ControlClient} {first : Incoming} {rest : List Incoming}
    (h : c.incoming = first :: rest) : readFrame c = lift first { c with incoming := rest } := by
  unfold readFrame
  simp only [bind_apply, read_apply, h, update_apply]

omit [SerdeJson] in
theorem readFrame_none {c : ControlClient} (h : c.incoming = []) :
    readFrame c = (.err (.io "read holder control header" .wouldBlock), c) := by
  unfold readFrame
  simp only [bind_apply, read_apply, h, fail_apply]

omit [SerdeJson] in
theorem leaves_observeGeneration {incoming : List Incoming} {written generation : Nat} :
    Leaves (fun c : ControlClient => c.incoming = incoming ∧ c.written = written)
      (observeGeneration generation) :=
  Leaves.bind (Leaves.read _) fun _ => Leaves.bind (Leaves.reject _ _) fun _ =>
    Leaves.update fun _ => id

theorem leaves_keepEvent {incoming : List Incoming} {written : Nat} (event : HolderFrame) :
    Leaves (fun c : ControlClient => c.incoming = incoming ∧ c.written = written)
      (keepEvent event) := by
  refine Leaves.bind (Leaves.reject _ _) fun _ => Leaves.bind (Leaves.read _) fun _ => ?_
  refine Leaves.bind (Leaves.reject _ _) fun _ => Leaves.bind leaves_observeGeneration fun _ => ?_
  exact Leaves.bind (Leaves.read _) fun _ => Leaves.bind (Leaves.reject _ _) fun _ =>
    Leaves.update fun _ => id

/-- The response is what comes behind the events. -/
theorem receive_run {requestId fuel : Nat} {responseType : HolderMessageType}
    {events : List HolderFrame} {last : Incoming} {c c' : ControlClient} {frame : HolderFrame}
    (hid : requestId ≠ 0) (hevents : ∀ f ∈ events, f.requestId = 0)
    (hincoming : c.incoming = events.map .ok ++ [last])
    (h : receive requestId responseType fuel c = (.ok frame, c')) :
    last = .ok frame ∧ c'.incoming = [] ∧ c'.written = c.written := by
  induction events generalizing fuel c with
  | nil =>
    cases fuel with
    | zero => cases h
    | succ fuel =>
      obtain ⟨response, c₁, hread, h⟩ := bind_returns.mp h
      rw [readFrame_first hincoming] at hread
      cases last with
      | error e => cases hread
      | ok found =>
        cases hread
        split at h
        · obtain ⟨_, c₂, hobserve, h⟩ := bind_returns.mp h
          cases h
          obtain ⟨hrest, hwritten⟩ := leaves_observeGeneration.run hobserve ⟨rfl, rfl⟩
          exact ⟨rfl, hrest, hwritten⟩
        · -- nothing is left to read
          obtain ⟨_, c₂, hkeep, h⟩ := bind_returns.mp h
          obtain ⟨hrest, -⟩ := (leaves_keepEvent _).run hkeep ⟨rfl, rfl⟩
          cases fuel with
          | zero => cases h
          | succ fuel =>
            obtain ⟨_, _, hread, -⟩ := bind_returns.mp h
            rw [readFrame_none hrest] at hread
            cases hread
  | cons event events ih =>
    cases fuel with
    | zero => cases h
    | succ fuel =>
      obtain ⟨response, c₁, hread, h⟩ := bind_returns.mp h
      rw [readFrame_first hincoming] at hread
      cases hread
      have hzero : event.requestId = 0 := hevents event List.mem_cons_self
      split at h
      · rename_i hmatch
        exact absurd (hmatch.1.symm.trans hzero) hid
      · obtain ⟨_, c₂, hkeep, h⟩ := bind_returns.mp h
        obtain ⟨hrest, hwritten⟩ := (leaves_keepEvent _).run hkeep ⟨rfl, rfl⟩
        obtain ⟨hlast, hempty, hsame⟩ :=
          ih (fun f hf => hevents f (List.mem_cons_of_mem _ hf)) hrest h
        exact ⟨hlast, hempty, hsame.trans hwritten⟩

variable {holders : Nat → HolderServer} {between : Nat → List HolderFrame}
  {faults : Nat → Option Errno}

omit [SerdeJson] in
theorem writeRequest_run {answers : Answers} {frame : HolderFrame} {c c' : ControlClient}
    (h : writeRequest answers frame c = (.ok (), c')) : ∃ arrived,
      answers c.written frame = .ok arrived ∧
      c' = { c with incoming := c.incoming ++ arrived, written := c.written + 1 } := by
  obtain ⟨_, _, hread, h⟩ := bind_returns.mp h
  cases hread
  obtain ⟨_, c₁, hencoded, h⟩ := bind_returns.mp h
  obtain ⟨-, hsame⟩ := lift_returns.mp hencoded
  rw [hsame, id_eq] at h
  cases harrived : answers c.written frame with
  | error source =>
    rw [harrived] at h
    cases h
  | ok arrived =>
    rw [harrived] at h
    cases h
    exact ⟨arrived, rfl, rfl⟩

omit [SerdeJson] in
/-- What arrives ends with the answer of the holder, or with the end of the connection. -/
theorem served_run {n : Nat} {frame : HolderFrame} {arrived : List Incoming}
    (h : served holders between faults n frame = .ok arrived) :
    ∃ last, arrived = (between n).map .ok ++ [last] ∧
      ∀ answer, last = .ok answer → (holders n).inventoryAnswer frame = .ok answer := by
  unfold served at h
  split at h
  · cases h
  · cases h
    refine ⟨_, rfl, fun answer hanswer => ?_⟩
    split at hanswer
    · rw [‹(holders n).inventoryAnswer frame = _›]
      exact congrArg Except.ok (Except.ok.inj hanswer)
    · cases hanswer

/-- A request that returns was answered by the holder as it is then. -/
theorem request_run {requestType responseType : HolderMessageType} {payload : Bytes}
    {c c' : ControlClient} {frame : HolderFrame}
    (hbetween : ∀ n, ∀ f ∈ between n, f.requestId = 0) (hclean : c.Clean)
    (h : request (served holders between faults) requestType responseType payload c =
      (.ok frame, c')) :
    c'.incoming = [] ∧ c'.written = c.written + 1 ∧ ∃ asked : HolderFrame,
      asked.payload = payload ∧ (holders c.written).inventoryAnswer asked = .ok frame := by
  obtain ⟨events, hincoming, hevents⟩ := hclean
  obtain ⟨_, _, hread, h⟩ := bind_returns.mp h
  cases hread
  obtain ⟨_, _, hupdate, h⟩ := bind_returns.mp h
  cases hupdate
  obtain ⟨_, c₁, hreject, h⟩ := bind_returns.mp h
  obtain ⟨hid, hsame⟩ := reject_returns.mp hreject
  rw [hsame] at h
  obtain ⟨_, c₂, hwrite, h⟩ := bind_returns.mp h
  obtain ⟨arrived, hserved, rfl⟩ := writeRequest_run hwrite
  obtain ⟨last, rfl, hanswer⟩ := served_run hserved
  obtain ⟨_, _, hread, h⟩ := bind_returns.mp h
  cases hread
  have harrived : c.incoming ++ ((between c.written).map .ok ++ [last]) =
      (events ++ between c.written).map .ok ++ [last] := by
    rw [hincoming, List.map_append, List.append_assoc]
  obtain ⟨hlast, hempty, hwritten⟩ := receive_run hid
    (fun f hf => (List.mem_append.mp hf).elim (hevents f) (hbetween c.written f)) harrived h
  exact ⟨hempty, hwritten, _, rfl, hanswer frame hlast⟩

end returns

end ControlClient

section pages

variable {h : HolderServer} {cursor : Nat}

theorem fits_inventoryPage (hfits : h.runtime.Fits) (request : InventoryRequest) :
    (h.inventoryPage request).Fits := by
  have hentries : ∀ entry ∈ (h.runtime.inventory request).entries, entry.Fits := by
    intro entry hentry
    obtain ⟨e, he, rfl⟩ := List.mem_map.mp hentry
    have hmem := List.mem_of_mem_filter (List.mem_of_mem_take he)
    exact hfits e.1 e.2 (Std.ExtTreeMap.mem_toList_iff_getElem?_eq_some.mp hmem)
  constructor
  · intro entry hentry
    obtain ⟨entry', hentry', rfl⟩ := List.mem_map.mp hentry
    exact { hentries entry' hentry' with }
  · intro next hnext
    change (if _ then none else _) = _ at hnext
    split at hnext
    · cases hnext
    · obtain ⟨entry, hentry, rfl⟩ := Option.map_eq_some_iff.mp hnext
      exact (hentries entry (List.mem_of_getLast? hentry)).sessionId

/-- An answer to the request for a page is that page, as the holder has it then. -/
theorem page_of_answer {asked frame : HolderFrame} {response : InventoryResponse}
    (hfits : h.runtime.Fits) (hcursor : cursor < 2 ^ 32)
    (hpayload : asked.payload = encodeInventoryRequest { cursor, limit := maxInventoryEntries })
    (hanswer : h.inventoryAnswer asked = .ok frame)
    (hdecode : decodeInventoryResponse frame.payload = .ok response) :
    frame.generation = h.runtime.generation ∧
      response = h.inventoryPage { cursor, limit := maxInventoryEntries } := by
  obtain ⟨request, hrequest, hanswer⟩ := bind_eq_ok.mp hanswer
  obtain ⟨payload, hencode, hanswer⟩ := bind_eq_ok.mp hanswer
  cases hanswer
  refine ⟨rfl, ?_⟩
  have hrequested : request = { cursor, limit := maxInventoryEntries } := by
    by_cases hvalid : validInventoryRequest { cursor, limit := maxInventoryEntries } = true
    · rw [hpayload, decode_encodeInventoryRequest hvalid hcursor] at hrequest
      cases hrequest
      rfl
    · -- no request is made for a cursor that is not valid
      rw [hpayload, encodeInventoryRequest, if_neg hvalid] at hrequest
      cases hrequest
  subst hrequested
  cases hencoded : encodeInventoryResponse (h.inventoryPage { cursor, limit := maxInventoryEntries }) with
  | error e =>
    rw [hencoded] at hencode
    cases hencode
  | ok bytes =>
    rw [hencoded] at hencode
    cases hencode
    have hfits := fits_inventoryPage hfits { cursor, limit := maxInventoryEntries }
    have hround := codec_inventoryResponse.round_trip _ _ hfits hencoded
    exact Except.ok.inj (hdecode.symm.trans hround)

end pages

section snapshots

variable {holders : Nat → HolderServer} {between : Nat → List HolderFrame}
  {faults : Nat → Option Errno} {changes : Nat → Nat} {first last : Nat}

/-- A holder that changes between the requests, `changes n` times after the one with number `n`,
and so seldom from `first` to `last` that no generation comes up again. -/
structure Seldom (holders : Nat → HolderServer) (changes : Nat → Nat) (first last : Nat) : Prop where
  fits : ∀ n, (holders n).runtime.Fits
  positive : ∀ n (s : SessionId), (holders n).runtime.sessions[s]? ≠ none → 0 < s
  changed : ∀ n, (holders n).runtime.Changes (changes n) (holders (n + 1)).runtime
  few : ∑ n ∈ Finset.Ico first last, changes n < generationPeriod

/-- What was read up to `cursor` is there as one of the holders lists it, whose generation is
remembered. -/
def ReadTo (holders : Nat → HolderServer) (first written cursor : Nat)
    (entries : List HolderSessionEntry) : Option Nat → Prop
  | none => entries = [] ∧ cursor = 0
  | some generation => ∃ n, first ≤ n ∧ n < written ∧
      generation = (holders n).runtime.generation ∧
      entries.map HolderSessionEntry.listed =
        Paging.upTo Listed.sessionId cursor (holders n).runtime.listing

/-- The snapshot is the listing of a holder that answered. -/
def TakenFrom (holders : Nat → HolderServer) (first written : Nat)
    (snapshot : ControlInventorySnapshot) : Prop :=
  ∃ n, first ≤ n ∧ n < written ∧ snapshot.generation = (holders n).runtime.generation ∧
    snapshot.entries.map HolderSessionEntry.listed = (holders n).runtime.listing

/-- With the same generation, nothing has changed. -/
theorem Seldom.listing_eq (h : Seldom holders changes first last) {i j : Nat} (hi : first ≤ i)
    (hij : i ≤ j) (hj : j < last)
    (hsame : (holders j).runtime.generation = (holders i).runtime.generation) :
    (holders j).runtime.listing = (holders i).runtime.listing := by
  have hsteps := Paging.Evolves.steps (f := fun n => (holders n).runtime) h.changed hij
  have hsum : ∑ n ∈ Finset.Ico i j, changes n ≤ ∑ n ∈ Finset.Ico first last, changes n :=
    Finset.sum_le_sum_of_subset (Finset.Ico_subset_Ico hi hj.le)
  exact hsteps.view_of_version (fun _ _ => few_changes) (hsum.trans_lt h.few) hsame

theorem Seldom.upTo_zero (h : Seldom holders changes first last) (n : Nat) :
    Paging.upTo Listed.sessionId 0 (holders n).runtime.listing = [] := by
  unfold Paging.upTo
  rw [List.filter_eq_nil_iff]
  intro l hl
  obtain ⟨session, hsession⟩ := mem_listing hl
  have := h.positive n l.sessionId (by rw [hsession]; exact Option.some_ne_none _)
  simpa using this.ne'

/-- What was read is what the holder lists when it has the generation that is remembered. -/
theorem Seldom.upTo_eq (h : Seldom holders changes first last) {cursor n : Nat}
    {entries : List HolderSessionEntry} {generation : Option Nat}
    (hread : ReadTo holders first n cursor entries generation) (hn : n < last)
    (hsame : ¬ generation.any (· ≠ (holders n).runtime.generation) = true) :
    entries.map HolderSessionEntry.listed =
      Paging.upTo Listed.sessionId cursor (holders n).runtime.listing := by
  cases generation with
  | none =>
    obtain ⟨rfl, rfl⟩ := hread
    exact (h.upTo_zero n).symm
  | some generation =>
    obtain ⟨i, hi, hlt, rfl, hentries⟩ := hread
    have heq : (holders n).runtime.generation = (holders i).runtime.generation := by
      by_contra hne
      exact hsame (decide_eq_true (Ne.symm hne))
    rw [hentries, h.listing_eq hi hlt.le hn heq]

namespace ControlClient

variable [SerdeJson]

theorem pageLoop_run (hholders : Seldom holders changes first last)
    (hbetween : ∀ n, ∀ f ∈ between n, f.requestId = 0) {fuel cursor : Nat}
    {entries : List HolderSessionEntry} {generation : Option Nat} {c c' : ControlClient}
    {result : Option ControlInventorySnapshot} (hcursor : cursor < 2 ^ 32) (hclean : c.Clean)
    (hfirst : first ≤ c.written) (hread : c.written < last → ReadTo holders first c.written cursor entries generation)
    (h : pageLoop (served holders between faults) fuel cursor entries generation c =
      (.ok result, c')) :
    c'.incoming = [] ∧ c.written ≤ c'.written ∧ (c'.written ≤ last →
      ∀ snapshot, result = some snapshot → TakenFrom holders first c'.written snapshot) := by
  induction fuel generalizing cursor entries generation c with
  | zero => cases h
  | succ fuel ih =>
    obtain ⟨frame, c₁, hrequest, h⟩ := bind_returns.mp h
    obtain ⟨hempty, hwritten, asked, hpayload, hanswer⟩ := request_run hbetween hclean hrequest
    obtain ⟨response, c₂, hlift, h⟩ := bind_returns.mp h
    obtain ⟨hdecoded, hc₂⟩ := lift_returns.mp hlift
    rw [hc₂] at h
    have hdecode : decodeInventoryResponse frame.payload = .ok response := by
      cases hresult : decodeInventoryResponse frame.payload with
      | error e => rw [hresult] at hdecoded; cases hdecoded
      | ok found => rw [hresult] at hdecoded; cases hdecoded; rfl
    obtain ⟨hgeneration, hpage⟩ :=
      page_of_answer (hholders.fits c.written) hcursor hpayload hanswer hdecode
    by_cases hchanged : generation.any (· ≠ frame.generation) = true
    · rw [if_pos hchanged] at h
      cases h
      exact ⟨hempty, by omega, fun _ => nofun⟩
    rw [if_neg hchanged] at h
    rw [hgeneration] at hchanged
    -- the page is of the listing that the pages before it are of
    have hupTo : c.written < last → entries.map HolderSessionEntry.listed =
        Paging.upTo Listed.sessionId cursor (holders c.written).runtime.listing :=
      fun hlt => hholders.upTo_eq (hread hlt) hlt hchanged
    have hentries : response.entries.map HolderSessionEntry.listed = Paging.page Listed.sessionId
        cursor maxInventoryEntries (holders c.written).runtime.listing := by
      rw [hpage]
      exact entries_inventoryPage _ _
    have hsorted := listing_sorted (holders c.written).runtime
    cases hnext : response.nextCursor with
    | none =>
      rw [hnext] at h
      cases h
      refine ⟨hempty, ?_, ?_⟩
      · change c.written ≤ c₁.written
        omega
      · rintro hlast snapshot ⟨⟩
        change c₁.written ≤ last at hlast
        refine ⟨c.written, hfirst, ?_, hgeneration, ?_⟩
        · change c.written < c₁.written
          omega
        · rw [hpage] at hnext
          rw [List.map_append, hupTo (by omega), hentries]
          exact Paging.upTo_append_page hsorted (drop_of_last (Nat.succ_pos _) hnext)
    | some next =>
      rw [hnext] at h
      obtain ⟨_, c₃, hreject, h⟩ := bind_returns.mp h
      obtain ⟨-, hc₃⟩ := reject_returns.mp hreject
      rw [hc₃] at h
      have hlt : next < 2 ^ 32 := nextCursor_of_decode hdecode hnext
      have hclean₁ : c₁.Clean := ⟨[], hempty, nofun⟩
      have hread₁ : c₁.written < last → ReadTo holders first c₁.written next
          (entries ++ response.entries) (some frame.generation) := by
        intro hc
        refine ⟨c.written, hfirst, by omega, hgeneration, ?_⟩
        rw [hpage] at hnext
        obtain ⟨l, hl, rfl⟩ := sessionId_of_getLast hnext
        rw [List.map_append, hupTo (by omega), hentries]
        exact Paging.upTo_append_page_of_last hsorted hl
      obtain ⟨hempty', hle, htaken⟩ := ih hlt hclean₁ (by omega) hread₁ h
      exact ⟨hempty', by omega, htaken⟩

theorem attempts_run (hholders : Seldom holders changes first last)
    (hbetween : ∀ n, ∀ f ∈ between n, f.requestId = 0) {count : Nat} {c c' : ControlClient}
    {snapshot : ControlInventorySnapshot} (hclean : c.Clean) (hfirst : first ≤ c.written)
    (hlast : c'.written ≤ last)
    (h : attempts (served holders between faults) count c = (.ok snapshot, c')) :
    TakenFrom holders first c'.written snapshot := by
  induction count generalizing c with
  | zero => cases h
  | succ count ih =>
    obtain ⟨result, c₁, honce, h⟩ := bind_returns.mp h
    have hstart : c.written < last → ReadTo holders first c.written 0 [] none :=
      fun _ => ⟨rfl, rfl⟩
    obtain ⟨hempty, hle, htaken⟩ :=
      pageLoop_run hholders hbetween (by omega) hclean hfirst hstart honce
    cases result with
    | some found =>
      cases h
      exact htaken hlast snapshot rfl
    | none => exact ih ⟨[], hempty, nofun⟩ (hfirst.trans hle) h

end ControlClient

end snapshots

/-- Every run changes the listing some number of times. -/
theorem HolderReachable.changes_run [SerdeJson] {config : HolderConfig} {r r' : HolderRun}
    (h : HolderReachable config r) (hrun : Run.Reachable HolderRun.step (· = r) r')
    (hrunning : r'.status matches .running) :
    ∃ n, r.world.server.runtime.Changes n r'.world.server.runtime := by
  induction hrun with
  | start heq =>
    rw [heq]
    exact ⟨0, .refl _⟩
  | step hrun _ hstep ih =>
    obtain ⟨n, hn⟩ := ih (running_of_step hstep)
    obtain ⟨m, hm⟩ := HolderReachable.changes (h.trans hrun) hstep hrunning
    exact ⟨n + m, hn.trans hm⟩

/-- Reading the inventory page by page ends, and when it gives a snapshot, that is the listing of
the holder at the moment of one of its answers: `runs n` is where the holder has come to when it
answers the request with number `n`, and it changes `changes n` times before the next. Only a
generation that has come up again in the meantime is not noticed. -/
theorem inventory_snapshot_consistent [SerdeJson] {config : HolderConfig} {runs : Nat → HolderRun}
    {changes : Nat → Nat} (hruns : ∀ n, HolderReachable config (runs n))
    (hfits : ∀ n, (runs n).world.server.runtime.Fits)
    (hchanges : ∀ n, (runs n).world.server.runtime.Changes (changes n)
      (runs (n + 1)).world.server.runtime)
    {between : Nat → List HolderFrame} (hbetween : ∀ n, ∀ f ∈ between n, f.requestId = 0)
    (faults : Nat → Option Errno) {c : ControlClient} (hclean : c.Clean) :
    (∀ c', ControlClient.inventorySnapshot
      (served (fun n => (runs n).world.server) between faults) c ≠ (.panic, c')) ∧
    ∀ snapshot c', ControlClient.inventorySnapshot
        (served (fun n => (runs n).world.server) between faults) c = (.ok snapshot, c') →
      ∑ n ∈ Finset.Ico c.written c'.written, changes n < generationPeriod →
      TakenFrom (fun n => (runs n).world.server) c.written c'.written snapshot ∧
        (snapshot.entries.map HolderSessionEntry.sessionId).Pairwise (· < ·) := by
  constructor
  · intro c' hpanic
    have hends := ControlClient.attempts_end
      (served (fun n => (runs n).world.server) between faults) maxInventoryRetries c trivial
    unfold ControlClient.inventorySnapshot at hpanic
    rw [hpanic] at hends
    exact hends
  · intro snapshot c' hrun hfew
    have hseldom : Seldom (fun n => (runs n).world.server) changes c.written c'.written :=
      ⟨hfits, fun n => (hruns n).positive, hchanges, hfew⟩
    have htaken := ControlClient.attempts_run hseldom hbetween hclean le_rfl le_rfl hrun
    refine ⟨htaken, ?_⟩
    obtain ⟨n, -, -, -, hentries⟩ := htaken
    have hids : snapshot.entries.map HolderSessionEntry.sessionId =
        (snapshot.entries.map HolderSessionEntry.listed).map Listed.sessionId := by
      rw [List.map_map]
      rfl
    rw [hids, hentries, List.pairwise_map]
    exact listing_sorted _

/-- A daemon that has just claimed the control connection. -/
def ControlClient.sample : ControlClient where
  instanceId := sampleConfig.instanceId
  generation := 0
  protocolMinor := 1
  capabilities := 0

/-- Session 1, as the inventory shows it. -/
def sampleEntry : HolderSessionEntry where
  sessionId := 1
  shellPid := 1
  state := .running
  exitCode := none
  createdAtMs := 0
  lastActiveAtMs := 0
  ringBytes := 0
  writerActive := false
  logState := .disabled
  exitContextAvailable := false

def ControlInventorySnapshot.sample : ControlInventorySnapshot where
  instanceId := sampleConfig.instanceId
  generation := 1
  entries := [sampleEntry]

theorem run_sample : (Script.run Script.opening).any (fun r =>
    decide (r.world.server.runtime.sessions.toList.map (fun e => e.2.entry e.1) = [sampleEntry]) &&
      decide ((@ControlClient.inventorySnapshot Script.json
        (served (fun _ => r.world.server) (fun _ => []) fun _ => none) ControlClient.sample).1 =
          .ok .sample)) = true := by
  decide +kernel

/-- A holder that stays as it is, with one session. -/
theorem inventory_snapshot_sample : ∃ (r : HolderRun) (written : Nat),
    TakenFrom (fun _ => r.world.server) 0 written .sample := by
  obtain ⟨r, hrun, hcheck⟩ := (Option.any_eq_true _ _).mp run_sample
  rw [Bool.and_eq_true] at hcheck
  obtain ⟨hlisted, hread⟩ := hcheck
  have hlisted := of_decide_eq_true hlisted
  have hfits : r.world.server.runtime.Fits := by
    intro s session hsession
    have hmem := List.mem_map_of_mem (f := fun e : SessionId × Session => e.2.entry e.1)
      (Std.ExtTreeMap.mem_toList_iff_getElem?_eq_some.mpr hsession)
    rw [hlisted, List.mem_singleton] at hmem
    dsimp only at hmem
    rw [hmem]
    exact ⟨by decide, by decide, nofun, by decide, by decide, by decide⟩
  have hconsistent := @inventory_snapshot_consistent Script.json sampleConfig (fun _ => r)
    (fun _ => 0) (fun _ => Script.reachable hrun) (fun _ => hfits) (fun _ => .refl _)
    (fun _ => []) (fun _ _ hf => by cases hf) (fun _ => none) ControlClient.sample
    ⟨[], rfl, fun _ hf => by cases hf⟩
  refine ⟨r, _, (hconsistent.2 _ _ (Prod.ext (of_decide_eq_true hread) rfl) ?_).1⟩
  rw [Finset.sum_const_zero]
  exact Nat.succ_pos _

end PersistShell
