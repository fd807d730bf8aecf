import Wsddn.Container.NodeSet
import Wsddn.Machine.Basic
import Wsddn.Wsd.Request

/-!
# Repeated messages (`WsdServerImpl::checkNewMessageId` of `wsd_server.cpp`)

The server remembers the ids of the last messages it has accepted, in a `std::set` for the search
and in a `std::deque` of iterators into that set for the order.  `KnownMessages` are these two
containers, iterators included; in `Responder` an iterator is the id that it points to.

* `KnownMessages.Inv` : the two containers are in step and hold the last accepted ids; preserved
  by every call (`checkNewMessageId_spec`).
* `Responder.Window` : the same for the containers of a `Responder`, through every request.
* `KnownMessages.shows_run` : the containers of a `Responder` are those of the server.
* `KnownMessages.duplicates_suppressed` : **between two processed requests with one id** `50` others
  were processed.
-/

namespace Wsddn

/-- `m_knownMessageIds` and `m_knownMessageIdsLRU`. -/
structure KnownMessages where
  ids : NodeSet SysString := {}
  /-- The newest in front. -/
  lru : List ℕ := []

namespace KnownMessages

/-- The result and the containers afterwards; `none` is an access through an iterator whose
element is gone, or to the end of an empty deque. -/
def checkNewMessageId (k : KnownMessages) (messageId : SysString) :
    Option (Bool × KnownMessages) :=
  match k.ids.emplace messageId with
  | (_, false, ids) => some (false, { k with ids })
  | (it, true, ids) =>
    if k.lru.length = maxKnownMessages then
      match k.lru.getLast? with
      | none => none
      | some back => (ids.erase back).map fun ids => (true, ⟨ids, it :: k.lru.dropLast⟩)
    else some (true, ⟨ids, it :: k.lru⟩)

/-- The calls, one after the other. -/
def machine : Machine KnownMessages SysString where
  init k := k = {}
  step k messageId := (k.checkNewMessageId messageId).map Prod.snd

/-- The ids that were accepted so far, the newest in front. -/
def remember (accepted : List SysString) (k : KnownMessages) (messageId : SysString) :
    List SysString :=
  if (k.checkNewMessageId messageId).any Prod.fst then messageId :: accepted else accepted

/-- The calls, with the ids accepted so far. -/
def history : Machine (KnownMessages × List SysString) SysString :=
  machine.withHistory [] remember

/-- The iterators point to distinct elements, to all of them, and they are at most `50`. -/
structure InStep (k : KnownMessages) : Prop where
  distinct : k.lru.Nodup
  live : ∀ it ∈ k.lru, ∃ messageId, k.ids.deref it = some messageId
  all : ∀ it messageId, k.ids.deref it = some messageId → it ∈ k.lru
  bounded : k.lru.length ≤ maxKnownMessages

/-- The containers hold the last of the accepted ids, in order. -/
structure Inv (k : KnownMessages) (accepted : List SysString) : Prop where
  iters : k.ids.iters = k.lru
  keys : k.ids.keys = accepted.take maxKnownMessages
  spaced : Spaced maxKnownMessages accepted

variable {k k' : KnownMessages} {accepted : List SysString} {messageId : SysString}

theorem inv_init : Inv {} [] := ⟨rfl, rfl, trivial⟩

theorem Inv.length_lru (h : Inv k accepted) :
    k.lru.length = min maxKnownMessages accepted.length := by
  rw [← h.iters, NodeSet.iters, List.length_map, ← List.length_map Prod.snd, ← List.length_take]
  exact congrArg List.length h.keys

theorem Inv.inStep (h : Inv k accepted) : InStep k := by
  refine ⟨?_, ?_, ?_, ?_⟩
  · rw [← h.iters]
    exact k.ids.iters_nodup
  · intro it hit
    rw [← h.iters, ← NodeSet.deref_isSome] at hit
    exact Option.isSome_iff_exists.1 hit
  · intro it m hm
    rw [← h.iters, ← NodeSet.deref_isSome, hm]
    rfl
  · rw [h.length_lru]
    exact Nat.min_le_left _ _

/-- A full deque has a last iterator, the one to the oldest node. -/
theorem Inv.nodes_of_full (h : Inv k accepted) (hfull : k.lru.length = maxKnownMessages) :
    ∃ ns n, k.ids.nodes = ns ++ [n] := by
  have hne : k.ids.nodes ≠ [] := by
    intro he
    rw [← h.iters, NodeSet.iters, he] at hfull
    exact absurd hfull (by decide)
  exact ⟨_, _, (List.dropLast_append_getLast hne).symm⟩

/-- **One call**: an id that is not among the last accepted ones is accepted, and the containers
hold the last of the ids accepted now; another id changes nothing. -/
theorem checkNewMessageId_spec (h : Inv k accepted) (messageId : SysString) :
    if messageId ∈ accepted.take maxKnownMessages then
      k.checkNewMessageId messageId = some (false, k)
    else ∃ k', k.checkNewMessageId messageId = some (true, k') ∧
      Inv k' (messageId :: accepted) := by
  rw [← h.keys]
  split_ifs with hmem
  · rw [checkNewMessageId, NodeSet.emplace_of_mem hmem]
  · have hspaced : Spaced maxKnownMessages (messageId :: accepted) := ⟨h.keys ▸ hmem, h.spaced⟩
    have hlen := h.length_lru
    rw [checkNewMessageId, NodeSet.emplace_of_notMem hmem]
    dsimp only
    split_ifs with hfull
    · -- the deque is full: the oldest node, to which its last iterator points, makes room
      obtain ⟨ns, n, hns⟩ := h.nodes_of_full hfull
      have hlru : k.lru = ns.map Prod.fst ++ [n.1] := by
        rw [← h.iters, NodeSet.iters, hns, List.map_append]
        rfl
      have hlast : n.1 ∈ (k.ids.insert messageId hmem).iters := by
        simp [NodeSet.iters, hns]
      have hremove : ((k.ids.insert messageId hmem).remove n.1).nodes =
          (k.ids.fresh, messageId) :: ns :=
        NodeSet.remove_nodes_of_concat (by rw [NodeSet.insert_nodes, hns]; rfl)
      rw [hlru, List.getLast?_concat, List.dropLast_concat]
      dsimp only
      rw [NodeSet.erase, if_pos hlast]
      refine ⟨_, rfl, ?_, ?_, hspaced⟩
      · rw [NodeSet.iters, hremove]
        rfl
      · rw [take_cons_of_le messageId (by decide) (by omega), ← h.keys, NodeSet.keys, NodeSet.keys,
          hremove, hns, List.map_append, List.map_cons]
        exact congrArg _ List.dropLast_concat.symm
    · refine ⟨_, rfl, ?_, ?_, hspaced⟩
      · rw [NodeSet.iters, NodeSet.insert_nodes, List.map_cons]
        exact congrArg _ h.iters
      · rw [take_cons_of_lt messageId (by omega), ← h.keys]
        rfl

/-- What is true of the accepted ids in every reachable state. -/
theorem inv_of_reachable {x : KnownMessages × List SysString} (h : history.Reachable x) :
    Inv x.1 x.2 := by
  refine h.invariant (I := fun x => Inv x.1 x.2) ?_ ?_
  · rintro ⟨k, accepted⟩ ⟨hk, ha⟩
    dsimp only at ha ⊢
    rw [show k = {} from hk, ha]
    exact inv_init
  · rintro ⟨k, accepted⟩ messageId ⟨k', accepted'⟩ hinv hst
    obtain ⟨hst, ha⟩ := Machine.withHistory_step_eq_some.1 hst
    obtain ⟨r, hr, hk⟩ := Option.map_eq_some_iff.1 hst
    have hspec := checkNewMessageId_spec hinv messageId
    dsimp only at ha hk hr hspec ⊢
    split_ifs at hspec with hmem
    · obtain rfl := Option.some.inj (hspec.symm.trans hr)
      rw [ha, remember, hspec, ← hk]
      exact hinv
    · obtain ⟨k₁, hk₁, hinv'⟩ := hspec
      obtain rfl := Option.some.inj (hk₁.symm.trans hr)
      rw [ha, remember, hk₁, ← hk]
      exact hinv'

end KnownMessages

/-! ### The server -/

namespace Responder

/-- The containers of a server, which hold the last of the accepted ids. -/
structure Window (w : Responder) (accepted : List SysString) : Prop where
  lru : w.knownMessageIdsLRU = accepted.take maxKnownMessages
  ids : w.knownMessageIds = w.knownMessageIdsLRU.toFinset
  spaced : Spaced maxKnownMessages accepted

/-- The request is no repetition. -/
def processes (w : Responder) (doc : Soap) : Bool :=
  doc.header && (w.checkNewMessageId doc.messageId).1

/-- The ids of the requests `rs` that are processed, in their order. -/
def accepted (host : Host) : Responder → List (RequestType × Soap) → List SysString
  | _, [] => []
  | w, r :: rs =>
    (if w.processes r.2 then [r.2.messageId] else []) ++
      accepted host (w.handleRequest host r.1 r.2).2 rs

/-- The server after some requests. -/
def after (host : Host) (w : Responder) (rs : List (RequestType × Soap)) : Responder :=
  rs.foldl (fun w r => (w.handleRequest host r.1 r.2).2) w

variable {host : Host} {w w' : Responder} {ids : List SysString}

theorem Window.of_eq (h : Window w ids) (hi : w'.knownMessageIds = w.knownMessageIds)
    (hl : w'.knownMessageIdsLRU = w.knownMessageIdsLRU) : Window w' ids :=
  ⟨hl.trans h.lru, by rw [hi, hl, h.ids], h.spaced⟩

theorem window_init : Window {} [] := ⟨rfl, rfl, trivial⟩

theorem erase_insert_concat {ms : List SysString} {m messageId : SysString} (hne : messageId ≠ m)
    (hm : m ∉ ms) :
    (insert messageId (ms ++ [m]).toFinset).erase m = (messageId :: ms).toFinset := by
  ext x
  simp only [Finset.mem_erase, Finset.mem_insert, List.mem_toFinset, List.mem_append,
    List.mem_cons, List.not_mem_nil, or_false]
  constructor
  · rintro ⟨hx, rfl | hx' | hx'⟩
    · exact .inl rfl
    · exact .inr hx'
    · exact absurd hx' hx
  · rintro (rfl | hx)
    · exact ⟨hne, .inl rfl⟩
    · exact ⟨fun he => hm (he ▸ hx), .inr (.inl hx)⟩

/-- One call, as `KnownMessages.checkNewMessageId_spec` says it. -/
theorem checkNewMessageId_window (h : Window w ids) (messageId : SysString) :
    if messageId ∈ ids.take maxKnownMessages then w.checkNewMessageId messageId = (false, w)
    else (w.checkNewMessageId messageId).1 = true ∧
      Window (w.checkNewMessageId messageId).2 (messageId :: ids) := by
  have hmem : messageId ∈ w.knownMessageIds ↔ messageId ∈ ids.take maxKnownMessages := by
    rw [h.ids, List.mem_toFinset, h.lru]
  split_ifs with hin
  · rw [checkNewMessageId, if_pos (hmem.2 hin)]
  · have hspaced : Spaced maxKnownMessages (messageId :: ids) := ⟨hin, h.spaced⟩
    have hlen : w.knownMessageIdsLRU.length = min maxKnownMessages ids.length := by
      rw [h.lru, List.length_take]
    rw [checkNewMessageId, if_neg (mt hmem.1 hin)]
    dsimp only
    split_ifs with hfull
    · refine ⟨rfl, ?_, ?_, hspaced⟩
      · rw [take_cons_of_le messageId (by decide) (by omega), ← h.lru]
      · -- the last id of the deque occurs nowhere else in it, and it is not the new one
        have hne : w.knownMessageIdsLRU ≠ [] := by
          intro he
          rw [he] at hfull
          exact absurd hfull (by decide)
        obtain ⟨ms, m, hms⟩ : ∃ ms m, w.knownMessageIdsLRU = ms ++ [m] :=
          ⟨_, _, (List.dropLast_append_getLast hne).symm⟩
        have hnd := h.spaced.nodup_window
        rw [← h.lru, hms, List.nodup_append] at hnd
        have hm : messageId ≠ m := by
          rintro rfl
          rw [← h.lru, hms] at hin
          simp at hin
        have hmms : m ∉ ms := fun hmem => hnd.2.2 m hmem m (by simp) rfl
        rw [h.ids, hms, List.getLast?_concat, List.dropLast_concat, Option.elim_some]
        exact erase_insert_concat hm hmms
    · refine ⟨rfl, ?_, ?_, hspaced⟩
      · rw [take_cons_of_lt messageId (by omega), ← h.lru]
      · rw [h.ids, List.toFinset_cons]

theorem dispatch_known (host : Host) (type : RequestType) (doc : Soap) (w : Responder) :
    (dispatch host type doc w).2.2.knownMessageIds = w.knownMessageIds ∧
      (dispatch host type doc w).2.2.knownMessageIdsLRU = w.knownMessageIdsLRU := by
  unfold dispatch handleProbe handleResolve handleGet
  dsimp only
  split <;> split_ifs <;> first
    | exact ⟨rfl, rfl⟩
    | (split <;> (try split_ifs) <;> exact ⟨rfl, rfl⟩)

theorem reply_known (doc : Soap) (r : Bool × WSDResponseBuilder × Responder) :
    (reply doc r).2.knownMessageIds = r.2.2.knownMessageIds ∧
      (reply doc r).2.knownMessageIdsLRU = r.2.2.knownMessageIdsLRU := by
  obtain ⟨handled, b, w⟩ := r
  cases handled with
  | false => exact ⟨rfl, rfl⟩
  | true =>
    unfold reply
    dsimp only
    split <;> exact ⟨rfl, rfl⟩

theorem checkNewMessageId_call (c : Call) (messageId : SysString) :
    ((w.call c).checkNewMessageId messageId).1 = (w.checkNewMessageId messageId).1 := by
  by_cases hm : messageId ∈ w.knownMessageIds
  · simp [checkNewMessageId, call, hm]
  · by_cases hl : w.knownMessageIdsLRU.length = maxKnownMessages <;>
      simp [checkNewMessageId, call, hm, hl]

/-- What `handleRequest` does, by whether it processes the request. -/
theorem handleRequest_eq (host : Host) (type : RequestType) (doc : Soap) (w : Responder) :
    w.handleRequest host type doc =
      if w.processes doc then
        reply doc (dispatch host type doc
          ((w.call (.handleRequest type)).checkNewMessageId doc.messageId).2)
      else if doc.header then
        (none, ((w.call (.handleRequest type)).checkNewMessageId doc.messageId).2)
      else (none, w.call (.handleRequest type)) := by
  have hc := checkNewMessageId_call (w := w) (.handleRequest type) doc.messageId
  unfold handleRequest processes
  rw [← hc]
  dsimp only
  cases doc.header with
  | false => rfl
  | true =>
    rcases (w.call (.handleRequest type)).checkNewMessageId doc.messageId with ⟨_ | _, w'⟩ <;> rfl

theorem processes_eq (h : Window w ids) (doc : Soap) :
    w.processes doc = (doc.header && doc.messageId ∉ ids.take maxKnownMessages) := by
  have hspec := checkNewMessageId_window h doc.messageId
  unfold processes
  split_ifs at hspec with hmem
  · rw [hspec, decide_eq_false (not_not.2 hmem)]
  · rw [hspec.1, decide_eq_true hmem]

/-- **One request**: the containers hold the last of the ids of the requests processed now. -/
theorem Window.handleRequest (h : Window w ids) (host : Host) (type : RequestType) (doc : Soap) :
    Window (w.handleRequest host type doc).2
      (if w.processes doc then doc.messageId :: ids else ids) := by
  have hcall : Window (w.call (.handleRequest type)) ids := h.of_eq rfl rfl
  have hspec := checkNewMessageId_window hcall doc.messageId
  have hp := processes_eq h doc
  rw [handleRequest_eq]
  by_cases hheader : doc.header = true
  · rw [hheader, Bool.true_and] at hp
    split_ifs at hspec with hmem
    · rw [decide_eq_false (not_not.2 hmem)] at hp
      rw [hp, hheader, hspec]
      exact hcall
    · rw [decide_eq_true hmem] at hp
      rw [if_pos hp, if_pos hp]
      obtain ⟨hids, hlru⟩ := reply_known doc (dispatch host type doc
        ((w.call (.handleRequest type)).checkNewMessageId doc.messageId).2)
      obtain ⟨hids', hlru'⟩ := dispatch_known host type doc
        ((w.call (.handleRequest type)).checkNewMessageId doc.messageId).2
      exact hspec.2.of_eq (hids.trans hids') (hlru.trans hlru')
  · rw [Bool.not_eq_true] at hheader
    rw [hheader, Bool.false_and] at hp
    rw [hp, hheader]
    exact hcall

/-- The containers after some requests. -/
theorem Window.after (h : Window w ids) (host : Host) (rs : List (RequestType × Soap)) :
    Window (after host w rs) ((accepted host w rs).reverse ++ ids) := by
  induction rs generalizing w ids with
  | nil => exact h
  | cons r rs ih =>
    have := ih (h.handleRequest host r.1 r.2)
    show Window (Responder.after host (w.handleRequest host r.1 r.2).2 rs) _
    convert this using 1
    rw [accepted]
    split_ifs <;> simp

theorem after_append (host : Host) (w : Responder) (rs rs' : List (RequestType × Soap)) :
    after host w (rs ++ rs') = after host (after host w rs) rs' := List.foldl_append

theorem after_cons (host : Host) (w : Responder) (r : RequestType × Soap)
    (rs : List (RequestType × Soap)) :
    after host w (r :: rs) = after host (w.handleRequest host r.1 r.2).2 rs := rfl

/-- **Between two processed requests with one id** at least `50` requests with other, distinct
ids were processed. -/
theorem between_processed (host : Host) {pre mid : List (RequestType × Soap)}
    {r r' : RequestType × Soap} (hid : r.2.messageId = r'.2.messageId)
    (hr : (after host {} pre).processes r.2 = true)
    (hr' : (after host {} (pre ++ r :: mid)).processes r'.2 = true) :
    ∃ others : List SysString,
      others.Sublist (accepted host (after host {} (pre ++ [r])) mid) ∧ others.Nodup ∧
      r.2.messageId ∉ others ∧ others.length = maxKnownMessages := by
  have hpre := window_init.after host pre
  have hone := hpre.handleRequest host r.1 r.2
  rw [if_pos hr] at hone
  have hmid := hone.after host mid
  rw [after_append, after_cons] at hr'
  have hend := hmid.handleRequest host r'.1 r'.2
  rw [if_pos hr', ← hid] at hend
  rw [← List.nil_append (_ :: _)] at hend
  obtain ⟨hlen, hnd, hnot⟩ := Spaced.between hend.spaced
  rw [after_append, after_cons]
  refine ⟨((accepted host _ mid).reverse.take maxKnownMessages).reverse, ?_,
    List.nodup_reverse.2 hnd, fun h => hnot (List.mem_reverse.1 h), ?_⟩
  · rw [← List.reverse_sublist, List.reverse_reverse]
    exact List.take_sublist _ _
  · rw [List.length_reverse, List.length_take]
    exact Nat.min_eq_left hlen

end Responder

namespace KnownMessages

/-- The calls of `checkNewMessageId` in a `Responder`, one after the other. -/
def checkAll (w : Responder) (ids : List SysString) : Responder :=
  ids.foldl (fun w messageId => (w.checkNewMessageId messageId).2) w

/-- The containers of a `Responder` are these, with every iterator replaced by the id to which it
points. -/
structure Shows (k : KnownMessages) (w : Responder) : Prop where
  lru : w.knownMessageIdsLRU.map some = k.lru.map k.ids.deref
  ids : w.knownMessageIds = k.ids.keys.toFinset

theorem Inv.shows {k : KnownMessages} {w : Responder} {accepted : List SysString}
    (h : Inv k accepted) (hw : w.Window accepted) : Shows k w := by
  constructor
  · rw [hw.lru, ← h.keys, ← h.iters, NodeSet.map_deref_iters]
  · rw [hw.ids, hw.lru, h.keys]

/-- **The containers of a `Responder` are those of the server**: after any calls they show the
same, and the next call has the same result. -/
theorem shows_run (ids : List SysString) :
    ∃ k, machine.run {} ids = some k ∧
      Shows k (checkAll {} ids) ∧ ∀ messageId, (k.checkNewMessageId messageId).map Prod.fst =
        some ((checkAll {} ids).checkNewMessageId messageId).1 := by
  suffices h : ∀ (ids : List SysString) (k : KnownMessages) (w : Responder) (accepted),
      Inv k accepted → w.Window accepted → ∃ k' accepted', machine.run k ids = some k' ∧
        Inv k' accepted' ∧ (checkAll w ids).Window accepted' by
    obtain ⟨k, accepted, hrun, hinv, hw⟩ := h ids {} {} [] inv_init Responder.window_init
    refine ⟨k, hrun, hinv.shows hw, fun messageId => ?_⟩
    have hk := checkNewMessageId_spec hinv messageId
    have hr := Responder.checkNewMessageId_window hw messageId
    split_ifs at hk hr
    · rw [hk, hr]
      rfl
    · obtain ⟨k', hk', -⟩ := hk
      rw [hk', hr.1]
      rfl
  intro ids
  induction ids with
  | nil => exact fun k w accepted hinv hw => ⟨k, accepted, rfl, hinv, hw⟩
  | cons messageId ids ih =>
    intro k w accepted hinv hw
    have hk := checkNewMessageId_spec hinv messageId
    have hr := Responder.checkNewMessageId_window hw messageId
    have hstep : ∀ b k', k.checkNewMessageId messageId = some (b, k') →
        machine.run k (messageId :: ids) = machine.run k' ids := by
      intro b k' he
      rw [Machine.run_cons]
      show (Option.map Prod.snd (k.checkNewMessageId messageId)).bind _ = _
      rw [he]
      rfl
    rw [checkAll, List.foldl_cons]
    split_ifs at hk hr
    · rw [hstep _ _ hk, hr]
      exact ih k w accepted hinv hw
    · obtain ⟨k', hk', hinv'⟩ := hk
      rw [hstep _ _ hk']
      exact ih k' _ _ hinv' hr.2

/-- **Suppression of repeated messages.**  After any calls the two containers are in step, and the
next call accepts an id exactly if it is none of the last `50` accepted ones; the containers of a
`Responder` show the same, with the same result.  So between two processed requests with one id,
whichever way each request came, `50` requests with other, distinct ids were processed. -/
theorem duplicates_suppressed (host : Host) :
    (∀ x, history.Reachable x → InStep x.1 ∧
      ∀ messageId, ∃ k', x.1.checkNewMessageId messageId =
        some (decide (messageId ∉ x.2.take 50), k')) ∧
    (∀ ids, ∃ k, machine.run {} ids = some k ∧ Shows k (checkAll {} ids) ∧
      ∀ messageId, (k.checkNewMessageId messageId).map Prod.fst =
        some ((checkAll {} ids).checkNewMessageId messageId).1) ∧
    ∀ (pre mid : List (RequestType × Soap)) (r r' : RequestType × Soap),
      (Responder.after host {} pre).processes r.2 = true →
      (Responder.after host {} (pre ++ r :: mid)).processes r'.2 = true →
      r.2.messageId = r'.2.messageId →
      ∃ others : List SysString,
        others.Sublist (Responder.accepted host (Responder.after host {} (pre ++ [r])) mid) ∧
        others.Nodup ∧ r.2.messageId ∉ others ∧ others.length = 50 := by
  refine ⟨fun x hx => ?_, shows_run, fun pre mid r r' hr hr' hid => ?_⟩
  · have hinv := inv_of_reachable hx
    refine ⟨hinv.inStep, fun messageId => ?_⟩
    have hspec := checkNewMessageId_spec hinv messageId
    change if messageId ∈ x.2.take 50 then _ else _ at hspec
    split_ifs at hspec with hmem
    · rw [decide_eq_false (not_not.2 hmem)]
      exact ⟨x.1, hspec⟩
    · rw [decide_eq_true hmem]
      obtain ⟨k', hk', -⟩ := hspec
      exact ⟨k', hk'⟩
  · exact Responder.between_processed host hid hr hr'

/-- A request that asks for nothing. -/
def idleRequest (messageId : SysString) : Soap := ⟨true, messageId, [], none, []⟩

/-- A host without a name. -/
def idleHost : Host := ⟨[], 0, [], (.v4 0, 5357), [], [], 64⟩

/-- Fifty requests with ids of their own, over UDP and over HTTP in turn. -/
def fiftyOthers : List (RequestType × Soap) :=
  (List.range 50).map fun n => (if n % 2 = 0 then .udp else .http, idleRequest [n.toUInt8 + 1])

/-- The containers after three calls, the last of them with a known id. -/
def afterRepetition : KnownMessages × List SysString :=
  (history.run ({}, []) [[1], [2], [1]]).get (by decide +kernel)

theorem repeated_after_fifty :
    (InStep afterRepetition.1 ∧ ∃ k', afterRepetition.1.checkNewMessageId [1] = some (false, k')) ∧
    ∃ others : List SysString,
      others.Sublist (Responder.accepted idleHost
        (Responder.after idleHost {} [(.udp, idleRequest [0])]) fiftyOthers) ∧
      others.Nodup ∧ [0] ∉ others ∧ others.length = 50 := by
  obtain ⟨hcalls, -, hrequests⟩ := duplicates_suppressed idleHost
  constructor
  · have hreach : history.Reachable afterRepetition :=
      ⟨({}, []), [[1], [2], [1]], ⟨rfl, rfl⟩, (Option.some_get _).symm⟩
    obtain ⟨hin, hcall⟩ := hcalls _ hreach
    have htaken : decide (([1] : SysString) ∉ afterRepetition.2.take 50) = false := by
      decide +kernel
    exact ⟨hin, htaken ▸ hcall [1]⟩
  · exact hrequests [] fiftyOthers (.udp, idleRequest [0]) (.http, idleRequest [0])
      (by decide +kernel) (by decide +kernel) rfl

end KnownMessages

end Wsddn
