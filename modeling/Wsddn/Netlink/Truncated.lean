import Wsddn.Netlink.OwnBytes

/-!
# A datagram that does not fit

The kernel sends messages in datagrams.  What does not fit the buffer of a receive is cut off and
lost, and the cut can be inside a message or between two.

* `Message.whole` : the messages that are whole in the bytes that fit.
* `take_encodeAll` : the bytes that fit are these messages, and the beginning of the next one.
* `parseMessageFor_append_cut` : the beginning of a message adds nothing to the messages before it.
* `calls_of_cut` : **what is cut off is noticed unless the cut is between two messages**, and the
  calls are those for the messages that are whole.
-/

namespace Wsddn

namespace Netlink

open LittleEndian

/-! ### Where the cut is -/

namespace Message

/-- The messages that are whole in the first `n` bytes. -/
def whole : ℕ → List Message → List Message
  | _, [] => []
  | n, m :: ms => if m.frame.length ≤ n then m :: whole (n - m.frame.length) ms else []

/-- The bytes are the beginning of a message, and not all of it. -/
structure Cut (tail : List UInt8) : Prop where
  aligned : tail.length % 4 = 0
  begins : tail = [] ∨ ∃ m : Message, tail <+: m.frame.encode ∧ tail.length < m.frame.length

theorem encodeAll_cons (m : Message) (ms : List Message) :
    encodeAll (m :: ms) = m.frame.encode ++ encodeAll ms := List.flatMap_cons

theorem whole_prefix (n : ℕ) (ms : List Message) : whole n ms <+: ms := by
  induction ms generalizing n with
  | nil => exact List.prefix_rfl
  | cons m ms ih =>
    rw [whole]
    split_ifs
    · exact List.cons_prefix_cons.2 ⟨rfl, ih _⟩
    · exact List.nil_prefix

theorem whole_of_le {n : ℕ} {ms : List Message} (h : (encodeAll ms).length ≤ n) :
    whole n ms = ms := by
  induction ms generalizing n with
  | nil => rfl
  | cons m ms ih =>
    rw [encodeAll_cons, List.length_append, Frame.length_encode] at h
    rw [whole, if_pos (by omega), ih (by omega)]

/-- The bytes of a datagram that fit. -/
theorem take_encodeAll {n : ℕ} (hn : n % 4 = 0) (ms : List Message) :
    ∃ tail, Cut tail ∧ (encodeAll ms).take n = encodeAll (whole n ms) ++ tail := by
  induction ms generalizing n with
  | nil => exact ⟨[], ⟨rfl, .inl rfl⟩, List.take_nil⟩
  | cons m ms ih =>
    have hlen := m.frame.length_encode
    have hmod : m.frame.length % 4 = 0 := m.frame.aligned
    rw [encodeAll_cons, whole]
    split_ifs with hfits
    · obtain ⟨tail, hcut, htail⟩ := ih (by omega : (n - m.frame.length) % 4 = 0)
      refine ⟨tail, hcut, ?_⟩
      rw [List.take_append, hlen, List.take_of_length_le (by omega), htail, encodeAll_cons,
        List.append_assoc]
    · have hbytes : (m.frame.encode.take n).length = n := by
        rw [List.length_take]
        omega
      refine ⟨m.frame.encode.take n, ⟨by omega, .inr ⟨m, List.take_prefix _ _, by omega⟩⟩, ?_⟩
      rw [List.take_append_of_le_length (by omega)]
      rfl

end Message

/-! ### The beginning of a message -/

section Cut

variable {tail bytes : List UInt8} {a : RtAttr}

theorem u32_of_cut {m : Message} (h : tail <+: m.frame.encode) (hlen : 4 ≤ tail.length) :
    u32 tail = some m.frame.length := by
  obtain ⟨rest, hrest⟩ := h
  obtain ⟨hu32, -⟩ := m.frame.read_encode []
  have happend : u32 (tail ++ rest) = u32 tail := u32_append hlen
  rw [← happend, hrest, ← hu32, List.append_nil]

theorem parseMessageFor_cut {σ : Type} {H : Handler σ} {cfg : MonitorConfig} {n : ℕ} {k : Answers}
    {st : Monitored σ} (h : Message.Cut tail) (hne : tail ≠ []) :
    parseMessageFor H cfg n k tail st = some (.inl .bufferTooSmall) := by
  obtain ⟨m, hpre, hlt⟩ := h.begins.resolve_left hne
  have hpos := List.length_pos_of_ne_nil hne
  have haligned := h.aligned
  obtain ⟨-, hlen, -⟩ := m.frame.read_encode []
  rw [parseMessageFor, if_neg (by omega), u32_of_cut hpre (by omega)]
  dsimp only
  rw [hlen, if_pos hlt]

theorem front_cut (h : Message.Cut tail) : front tail = none := by
  rcases h.begins with rfl | ⟨m, hpre, hlt⟩
  · rfl
  · unfold front
    split
    · rename_i len type hu16 _
      refine if_neg fun hok => ?_
      obtain ⟨rest, hrest⟩ := hpre
      have hfits : m.frame.length < 65536 := m.frame.fits
      have hread : u16 m.frame.encode = some m.frame.length := by
        rw [Frame.encode, le32, List.append_assoc]
        exact u16_le16_append hfits _
      rw [← hrest, u16_append (by omega), hu16, Option.some_inj] at hread
      omega
    · rfl

/-! ### What is found behind a message -/

theorem front_le16 (len type : ℕ) {data : List UInt8} (hlen : len = 4 + data.length)
    (hfits : len < 65536) (htype : type < 65536) (rest : List UInt8) :
    front (le16 len ++ (le16 type ++ (data ++ rest))) = some ⟨len, type, data⟩ := by
  have hlen' : u16 (le16 len ++ (le16 type ++ (data ++ rest))) = some len :=
    u16_le16_append hfits _
  have htype' : u16 ((le16 len ++ (le16 type ++ (data ++ rest))).drop 2) = some type :=
    u16_le16_append htype _
  have hdrop : (le16 len ++ (le16 type ++ (data ++ rest))).drop 4 = data ++ rest := rfl
  unfold front
  rw [hlen', htype']
  dsimp only
  rw [hdrop, if_pos, List.take_append_of_le_length (by omega), List.take_of_length_le (by omega)]
  simp only [List.length_append, length_le16]
  omega

/-- The attributes of a message come first. -/
theorem attributes_padded {ps : List Padded} (hfits : ∀ p ∈ ps, p.attr.rtaLen < 65536)
    (rest : List UInt8) : attributes (ps.flatMap Padded.encode ++ rest) =
      ps.map (fun p => ⟨p.attr.rtaLen, p.attr.type.toNat, p.attr.data⟩) ++ attributes rest := by
  induction ps with
  | nil => rfl
  | cons p ps ih =>
    have hbytes : (p :: ps).flatMap Padded.encode ++ rest = le16 p.attr.rtaLen ++
        (le16 p.attr.type.toNat ++ (p.attr.data ++ (p.padding ++
          (ps.flatMap Padded.encode ++ rest)))) := by
      simp only [List.flatMap_cons, Padded.encode, List.append_assoc]
    have hfront := front_le16 p.attr.rtaLen p.attr.type.toNat rfl (hfits p List.mem_cons_self)
      p.attr.type.toNat_lt (p.padding ++ (ps.flatMap Padded.encode ++ rest))
    rw [← hbytes] at hfront
    rw [attributes_of_some hfront, List.map_cons, List.cons_append]
    refine congrArg (_ :: ·) ?_
    rw [← ih fun q hq => hfits q (List.mem_cons_of_mem p hq), List.flatMap_cons, List.append_assoc,
      List.drop_left' p.length_encode]

/-- Behind them a message is taken for an attribute of type 0. -/
theorem type_of_attributes (h : Message.Cut tail) {ms : List Message}
    (ha : a ∈ attributes (Message.encodeAll ms ++ tail)) : a.type = 0 := by
  induction ms with
  | nil =>
    have hnone : attributes (Message.encodeAll [] ++ tail) = [] := attributes_of_none (front_cut h)
    rw [hnone] at ha
    exact absurd ha List.not_mem_nil
  | cons m ms ih =>
    have hfits : m.frame.length < 65536 := m.frame.fits
    have hhigh : m.frame.length / 65536 = 0 := by omega
    have hbytes : Message.encodeAll (m :: ms) ++ tail = le16 m.frame.length ++
        (le16 0 ++ (m.frame.tail ++ (Message.encodeAll ms ++ tail))) := by
      simp only [Message.encodeAll_cons, Frame.encode, le32, hhigh, List.append_assoc]
    have hfront := front_le16 m.frame.length 0 rfl hfits (by decide) (Message.encodeAll ms ++ tail)
    rw [hbytes, attributes_of_some hfront] at ha
    rcases List.mem_cons.1 ha with rfl | ha
    · rfl
    · refine ih ?_
      rw [← hbytes] at ha
      have halign : align4 m.frame.length = m.frame.encode.length := by
        rw [m.frame.length_encode]
        exact align4_of_mod m.frame.aligned
      rwa [Message.encodeAll_cons, List.append_assoc, List.drop_left' halign.symm] at ha

theorem sameReport_append (index : ℕ) (family : UInt8) (own : List RtAttr) {more : List RtAttr}
    (h : ∀ a ∈ more, a.type = 0) : SameReport index family own (own ++ more) := by
  have hfilter : ∀ p : RtAttr → Bool, (∀ a, p a = true → a.type ≠ 0) →
      (own ++ more).filter p = own.filter p := by
    intro p hp
    rw [List.filter_append, List.filter_eq_nil_iff.2 fun a ha htrue => hp a htrue (h a ha),
      List.append_nil]
  constructor
  · unfold addressOf
    rw [hfilter, hfilter]
    · intro a ha
      simp only [Bool.and_eq_true, decide_eq_true_eq] at ha
      rw [ha.1.1]
      decide
    · intro a ha
      simp only [Bool.and_eq_true, decide_eq_true_eq] at ha
      rw [ha.1]
      decide
  · intro _
    unfold labelOf
    rw [hfilter]
    intro a ha
    rw [of_decide_eq_true ha]
    decide

theorem isMessage_frame (m : Message) : IsMessage m.frame.encode where
  header := by
    rw [Frame.length_encode]
    cases m with
    | address f =>
      have hlen : (Message.address f).frame.length = f.message.length := f.length_tail
      rw [hlen]
      exact Nat.le_trans (by decide) (Nat.le_add_right _ _)
    | other m =>
      have hheader := m.header
      simp only [Message.frame, Frame.length, List.length_append, length_le16]
      omega
  len := by
    obtain ⟨hu32, hlen, -⟩ := m.frame.read_encode []
    rw [List.append_nil] at hu32
    exact ⟨m.frame.length, hu32, by rw [hlen, Frame.length_encode]⟩

theorem length_encodeAll_mod (ms : List Message) : (Message.encodeAll ms).length % 4 = 0 := by
  induction ms with
  | nil => rfl
  | cons m ms ih =>
    have hmod : m.frame.length % 4 = 0 := m.frame.aligned
    rw [Message.encodeAll_cons, List.length_append, Frame.length_encode]
    omega

theorem ownBytes_frame (h : Message.Cut tail) (m : Message) (ms : List Message) :
    OwnBytes m.frame.encode (Message.encodeAll ms ++ tail) := by
  rintro ⟨⟨len, hgo⟩, -, -⟩
  have hmod := (isMessage_frame m).mod
  have hms := length_encodeAll_mod ms
  have htail := h.aligned
  refine ⟨not_overhangs_of_mod ?_, fun family index _ _ => ?_⟩
  · simp only [List.length_drop, List.length_append]
    unfold nlmsgHdrLen ifaddrmsgSize
    omega
  · cases m with
    | address f =>
      have hattrs : ∀ rest : List UInt8, ((Message.address f).frame.encode ++ rest).drop
          (nlmsgHdrLen + ifaddrmsgSize) = f.padded.flatMap Padded.encode ++ rest := by
        intro rest
        simp only [Message.frame, Frame.encode, AddressFrame.tail, List.append_assoc]
        rfl
      have hfits : ∀ p ∈ f.padded, p.attr.rtaLen < 65536 := fun p hp =>
        f.message.rtaLen_lt _ (f.padded_attr ▸ List.mem_map.2 ⟨p, hp, rfl⟩)
      have hown := hattrs []
      rw [List.append_nil, List.append_nil] at hown
      have hnil : attributes [] = [] := rfl
      have hpadded := attributes_padded hfits []
      rw [List.append_nil, hnil, List.append_nil] at hpadded
      rw [hattrs, hown, attributes_padded hfits, hpadded]
      exact sameReport_append _ _ _ fun a => type_of_attributes h
    | other m =>
      have htype : u16 (((Message.other m).frame.encode ++ (Message.encodeAll ms ++ tail)).drop 4) =
          some m.type.toNat := by
        rw [((Message.other m).frame.read_encode _).2.2.2.1]
        simp only [Message.frame, List.append_assoc]
        exact u16_le16_append m.type.toNat_lt _
      rcases hgo with hgo | hgo
      · obtain ⟨_, _, htype', -⟩ := goesOn_eq_some_iff.1 hgo
        exact absurd (Option.some.inj (htype.symm.trans htype')) m.ne_new
      · obtain ⟨_, _, htype', -⟩ := goesOn_eq_some_iff.1 hgo
        exact absurd (Option.some.inj (htype.symm.trans htype')) m.ne_del

/-- **The beginning of a message adds nothing** to the messages before it. -/
theorem parseMessageFor_append_cut {σ : Type} {H : Handler σ} {cfg : MonitorConfig} {n : ℕ}
    {k : Answers} {st : Monitored σ} (h : Message.Cut tail) (m : Message) (ms : List Message) :
    parseMessageFor H cfg n k (m.frame.encode ++ (Message.encodeAll ms ++ tail)) st =
      parseMessageFor H cfg n k m.frame.encode st :=
  parseMessageFor_append (isMessage_frame m)
    (parseAddressFor_of_ownBytes (isMessage_frame m) (ownBytes_frame h m ms))

end Cut

/-! ### The loop -/

/-- One of some calls raises an exception. -/
def Handler.raises {σ : Type} (H : Handler σ) : List (ℕ × Call) → σ → Bool
  | [], _ => false
  | (n, c) :: cs, s => if (H.perform n c s).2 then true else H.raises cs (H.perform n c s).1

theorem Handler.raises_of_quiet {σ : Type} (H : Handler σ)
    (h : ∀ n c s, (H.perform n c s).2 = false) (cs : List (ℕ × Call)) (s : σ) :
    H.raises cs s = false := by
  induction cs generalizing s with
  | nil => rfl
  | cons c cs ih =>
    obtain ⟨n, c⟩ := c
    rw [Handler.raises, h, if_neg Bool.false_ne_true, ih]

/-- If none raises one, all calls are made. -/
theorem Handler.performAll_of_not_raises {σ : Type} (H : Handler σ) {cs : List (ℕ × Call)} {s : σ}
    (h : H.raises cs s = false) : (H.performAll cs s).1 = cs.map Prod.snd := by
  induction cs generalizing s with
  | nil => rfl
  | cons c cs ih =>
    obtain ⟨n, c⟩ := c
    rw [Handler.raises] at h
    split_ifs at h with hr
    rw [Handler.performAll, if_neg hr, ih h, List.map_cons]

/-- The calls that the rule gives for some messages. -/
def rule (cfg : MonitorConfig) (io : Interfaces) (ms : List Message) : List Call :=
  (ms.takeWhile fun m => m.ends.isNone).filterMap (Message.call cfg io)

/-- The status for some messages and the beginning of another one. -/
def statusOf (ms : List Message) (tail : List UInt8) : ParseStatus :=
  (ms.findSome? Message.ends).getD (if tail = [] then .expectMore else .bufferTooSmall)

section Loop

variable {σ : Type} {H : Handler σ} {cfg : MonitorConfig} {io : Interfaces} {n : ℕ}
  {st : Monitored σ} {tail : List UInt8}

theorem parseMessageFor_call_cut (h : Message.Cut tail) {k : ℕ → Answers} {m : Message}
    {ms : List Message} (hm : m.ends = none) (hk : Answering io k n (m :: ms))
    (hcache : CacheAgrees io st.knownIfaces) :
    ∃ known, CacheAgrees io known ∧
      parseMessageFor H cfg n (k n) (m.frame.encode ++ (Message.encodeAll ms ++ tail)) st =
        some (.inr (m.frame.length,
          ({ st with knownIfaces := known } : Monitored σ).performCall H n (m.call cfg io))) := by
  obtain ⟨known, hknown, hround⟩ := parseMessageFor_call (H := H) hm hk hcache []
  refine ⟨known, hknown, ?_⟩
  rw [parseMessageFor_append_cut h, ← hround]
  exact congrArg (parseMessageFor H cfg n (k n) · st) (List.append_nil _).symm

theorem parseMessageFor_ends_cut (h : Message.Cut tail) {k : Answers} {m : Message}
    {status : ParseStatus} (hm : m.ends = some status) (ms : List Message) :
    parseMessageFor H cfg n k (m.frame.encode ++ (Message.encodeAll ms ++ tail)) st =
      some (.inl status) := by
  have hround : parseMessageFor H cfg n k (m.frame.encode ++ Frame.encodeAll []) st = _ :=
    parseMessageFor_encode m []
  rw [hm] at hround
  rw [parseMessageFor_append_cut h, ← hround]
  exact congrArg (parseMessageFor H cfg n k · st) (List.append_nil _).symm

variable (H cfg) in
/-- **The loop over messages and the beginning of another one.** -/
theorem parseLoopFor_cut (h : Message.Cut tail) {k : ℕ → Answers} {ms : List Message} {fuel : ℕ}
    (st : Monitored σ) (hfuel : (Message.encodeAll ms ++ tail).length < fuel)
    (hk : Answering io k n ms) (hcache : CacheAgrees io st.knownIfaces) :
    ∃ st', parseLoopFor H cfg k fuel n (Message.encodeAll ms ++ tail) st =
        some (if H.raises (Message.calls cfg io n ms) st.handler then none
          else some (statusOf ms tail), st') ∧
      st'.calls = st.calls ++ (H.performAll (Message.calls cfg io n ms) st.handler).1 ∧
      st'.handler = (H.performAll (Message.calls cfg io n ms) st.handler).2 := by
  induction ms generalizing fuel n st with
  | nil =>
    obtain ⟨fuel, rfl⟩ : ∃ f, fuel = f + 1 := ⟨fuel - 1, by omega⟩
    refine ⟨st, ?_, by simp [Message.calls, Handler.performAll], rfl⟩
    by_cases htail : tail = []
    · subst htail
      rfl
    · have hbytes : Message.encodeAll [] ++ tail = tail := rfl
      rw [hbytes, parseLoopFor, if_neg htail, parseMessageFor_cut h htail]
      simp [statusOf, htail, Message.calls, Handler.raises]
  | cons m ms ih =>
    obtain ⟨fuel, rfl⟩ : ∃ f, fuel = f + 1 := ⟨fuel - 1, by omega⟩
    have hbytes : Message.encodeAll (m :: ms) ++ tail =
        m.frame.encode ++ (Message.encodeAll ms ++ tail) := by
      rw [Message.encodeAll_cons, List.append_assoc]
    have hpos : 4 ≤ m.frame.length := Nat.le_add_right _ _
    have hlen : (Message.encodeAll (m :: ms) ++ tail).length =
        m.frame.length + (Message.encodeAll ms ++ tail).length := by
      rw [hbytes, List.length_append, Frame.length_encode]
    have hne : m.frame.encode ++ (Message.encodeAll ms ++ tail) ≠ [] := by
      refine List.ne_nil_of_length_pos ?_
      rw [← hbytes, hlen]
      omega
    have hdrop : (m.frame.encode ++ (Message.encodeAll ms ++ tail)).drop m.frame.length =
        Message.encodeAll ms ++ tail := (m.frame.read_encode _).2.2.2.2
    rw [hbytes, parseLoopFor, if_neg hne]
    cases hends : m.ends with
    | some status =>
      rw [parseMessageFor_ends_cut h hends]
      refine ⟨st, ?_, by simp [Message.calls, hends, Handler.performAll],
        by simp [Message.calls, hends, Handler.performAll]⟩
      simp [Message.calls, hends, Handler.raises, statusOf]
    | none =>
      obtain ⟨known, hknown, hround⟩ := parseMessageFor_call_cut (H := H) h hends hk hcache
      have hstatus : statusOf (m :: ms) tail = statusOf ms tail := by
        simp [statusOf, hends]
      have hcalls : Message.calls cfg io n (m :: ms) =
          ((m.call cfg io).map fun c => (n, c)).toList ++ Message.calls cfg io (n + 1) ms := by
        rw [Message.calls, hends]
      rw [hround, hstatus, hcalls]
      cases hc : m.call cfg io with
      | none =>
        obtain ⟨st', hloop, hst'⟩ := ih { st with knownIfaces := known }
          (by omega : (Message.encodeAll ms ++ tail).length < fuel) hk.tail hknown
        refine ⟨st', ?_, hst'⟩
        dsimp only [Monitored.performCall]
        rw [hdrop]
        exact hloop
      | some c =>
        have hcall : ({ st with knownIfaces := known } : Monitored σ).performCall H n (some c) =
            (⟨(H.perform n c st.handler).1, known, st.calls ++ [c]⟩,
              (H.perform n c st.handler).2) := rfl
        rw [hcall]
        simp only [Option.map_some, Option.toList_some, List.singleton_append, Handler.performAll,
          Handler.raises]
        by_cases hr : (H.perform n c st.handler).2 = true
        · simp only [if_pos hr]
          exact ⟨_, rfl, rfl, rfl⟩
        · simp only [if_neg hr]
          rw [hdrop]
          obtain ⟨st', hloop, hcalls', hst'⟩ :=
            ih ⟨(H.perform n c st.handler).1, known, st.calls ++ [c]⟩
              (by omega : (Message.encodeAll ms ++ tail).length < fuel) hk.tail hknown
          exact ⟨st', hloop, by rw [hcalls', List.append_assoc]; rfl, hst'⟩

variable (H cfg) in
/-- **A receive of a datagram.** -/
theorem parseBufferFor_cut {k : ℕ → Answers} {ms : List Message} {size : ℕ} (hsize : size % 4 = 0)
    (hk : Answering io k 0 ms) (handler : σ) :
    ∃ tail st, (Message.encodeAll ms).take size =
        Message.encodeAll (Message.whole size ms) ++ tail ∧
      parseBufferFor H cfg k ((Message.encodeAll ms).take size) handler =
        some (if H.raises (Message.calls cfg io 0 (Message.whole size ms)) handler then none
          else some (statusOf (Message.whole size ms) tail), st) ∧
      st.calls = (H.performAll (Message.calls cfg io 0 (Message.whole size ms)) handler).1 ∧
      st.handler = (H.performAll (Message.calls cfg io 0 (Message.whole size ms)) handler).2 := by
  obtain ⟨tail, hcut, htail⟩ := Message.take_encodeAll hsize ms
  have hwhole : Answering io k 0 (Message.whole size ms) := by
    obtain ⟨later, hlater⟩ := Message.whole_prefix size ms
    intro i f hi
    refine hk i f ?_
    rw [← hlater, List.getElem?_append_left (List.getElem?_eq_some_iff.1 hi).1, hi]
  obtain ⟨st, hrun, hcalls, hhandler⟩ := parseLoopFor_cut H cfg hcut { handler }
    (Nat.lt_succ_self _) hwhole fun _ _ h => by cases h
  rw [← htail] at hrun
  exact ⟨tail, st, htail, hrun, hcalls, hhandler⟩

/-- **What is cut off is noticed unless the cut is between two messages.**  Of a datagram of
well-formed messages that does not fit, those are handled that are whole, each by the rule; and if
none of them ends the loop, the buffer is found to be too small exactly if the cut is inside a
message. -/
theorem calls_of_cut (cfg : MonitorConfig) (io : Interfaces) (H : Handler σ) (k : ℕ → Answers)
    (ms : List Message) (size : ℕ) (hsize : size % 4 = 0) (hk : Answering io k 0 ms) (handler : σ) :
    ∃ status st,
      parseBufferFor H cfg k ((Message.encodeAll ms).take size) handler = some (status, st) ∧
      st.calls = (H.performAll (Message.calls cfg io 0 (Message.whole size ms)) handler).1 ∧
      ((∀ n c s, (H.perform n c s).2 = false) →
        st.calls = rule cfg io (Message.whole size ms) ∧
        ((∀ m ∈ ms, m.ends = none) → (status = some .bufferTooSmall ↔
          (Message.encodeAll (Message.whole size ms)).length <
            min size (Message.encodeAll ms).length))) := by
  obtain ⟨tail, st, htail, hrun, hcalls, -⟩ := parseBufferFor_cut H cfg hsize hk handler
  refine ⟨_, st, hrun, hcalls, fun hquiet => ⟨?_, fun hends => ?_⟩⟩
  · rw [hcalls, H.performAll_of_not_raises (H.raises_of_quiet hquiet _ _)]
    exact Message.calls_map_snd cfg io 0 _
  · have hnone : statusOf (Message.whole size ms) tail =
        if tail = [] then .expectMore else .bufferTooSmall := by
      have hfind : (Message.whole size ms).findSome? Message.ends = none :=
        List.findSome?_eq_none_iff.2 fun m hm => hends m ((Message.whole_prefix size ms).subset hm)
      rw [statusOf, hfind, Option.getD_none]
    have hlen := congrArg List.length htail
    rw [List.length_take, List.length_append] at hlen
    rw [H.raises_of_quiet hquiet, if_neg Bool.false_ne_true, Option.some_inj, hnone]
    by_cases hnil : tail = []
    · rw [if_pos hnil]
      rw [hnil, List.length_nil] at hlen
      exact iff_of_false (by decide) (by omega)
    · rw [if_neg hnil]
      have := List.length_pos_of_ne_nil hnil
      exact iff_of_true rfl (by omega)

end Loop

/-- The first message is whole, and the cut is inside the second one. -/
theorem calls_of_cut_inside :
    ∃ status st, parseBufferFor quietHandler {}
        (fun _ => ⟨some (SysString.ofLiteral "eth1"), some 0x1043, .started⟩)
        ((Message.encodeAll [.address labelledFrame, .other doneMessage]).take 52) () =
          some (status, st) ∧
      st.calls = [.addAddress ⟨SysString.ofLiteral "eth0", 2⟩ (.v4 0x0A000001#32)] := by
  obtain ⟨status, st, hrun, -, hcalls⟩ := calls_of_cut {} multicasting quietHandler
    (fun _ => ⟨some (SysString.ofLiteral "eth1"), some 0x1043, .started⟩)
    [.address labelledFrame, .other doneMessage] 52 (by decide) (fun _ _ _ => ⟨rfl, rfl⟩) ()
  exact ⟨status, st, hrun, ((hcalls fun _ _ _ => rfl).1).trans (by decide +kernel)⟩

end Netlink

end Wsddn
