import Wsddn.Asio.Basic
import Wsddn.Text.Template

/-!
# Placeholders in the metadata (`WSDResponseBuilder` of `wsd_server.cpp`)

The metadata that a host answers a `Get` with can be a template of the user's.  Its text nodes are
expanded by `replaceInString`: a `$` before one of four keywords is replaced by a value, `$$` by
`$`, and any other `$` is to be dropped.  What the template means is `template`; `replaceInString`
is the loop of the source, with its flag `inDollar`.

* `replaceInString_iff` : the loop computes the expansion exactly if no `$` but the last character
  is neither doubled nor before a keyword: with such a `$` it also drops what comes after it.
* `replaceInString_escape` : text in which every `$` is doubled comes out as it was, and values are
  not expanded again.
-/

namespace Wsddn

open SysString

/-- What the answer to a `Get` is made from. -/
structure ResponseToGet where
  endpointIdentifier : SysString
  friendlyName : SysString
  fullComputerName : SysString
  hostAddr : IpAddress
  deriving DecidableEq, Repr

/-- The placeholders. -/
inductive Placeholder where
  | endpointId
  | smbHostDescription
  | smbFullHostName
  | ipAddr
  deriving DecidableEq, Repr

namespace Placeholder

/-- The name of a placeholder in a template, without the `$`. -/
def keyword : Placeholder → SysString
  | .endpointId => ofLiteral "ENDPOINT_ID"
  | .smbHostDescription => ofLiteral "SMB_HOST_DESCRIPTION"
  | .smbFullHostName => ofLiteral "SMB_FULL_HOST_NAME"
  | .ipAddr => ofLiteral "IP_ADDR"

/-- In the order in which they are tried. -/
def all : List Placeholder := [.endpointId, .smbHostDescription, .smbFullHostName, .ipAddr]

theorem mem_all (k : Placeholder) : k ∈ all := by cases k <;> decide

end Placeholder

namespace WSDResponseBuilder

/-- `$`. -/
def dollar : UInt8 := 36

-- `toString` is `ip::address::to_string()`
variable (toString : IpAddress → SysString) (data : ResponseToGet)

/-- What a placeholder is replaced by. -/
def valueOf : Placeholder → SysString
  | .endpointId => data.endpointIdentifier
  | .smbHostDescription => data.friendlyName
  | .smbFullHostName => data.fullComputerName
  | .ipAddr => toString data.hostAddr

/-- The loop of `replaceInString`.  `skip` counts the bytes of a keyword that are still to be passed
over. -/
def replaceLoop : Bool → ℕ → List UInt8 → List UInt8
  | _, _, [] => []
  | inDollar, skip + 1, _ :: rest => replaceLoop inDollar skip rest
  | true, 0, c :: rest =>
    if c = dollar then c :: replaceLoop false 0 rest
    else
      match Placeholder.all.find? fun k => k.keyword.isPrefixOf (c :: rest) with
      | some k => valueOf toString data k ++ replaceLoop false (k.keyword.length - 1) rest
      | none => replaceLoop false 0 rest -- the source goes on to `++first` here
  | false, 0, c :: rest =>
    if c = dollar then replaceLoop true 0 rest else c :: replaceLoop false 0 rest

/-- The text with its placeholders replaced. -/
def replaceInString (str : SysString) : SysString := replaceLoop toString data false 0 str

/-- `replacePlaceholdersInSelf` on a text node: the text it sets, `none` if it leaves the node as it
is. -/
def replacePlaceholdersInText (cont : SysString) : Option SysString :=
  if dollar ∉ cont then none else some (replaceInString toString data cont)

/-- What a template means. -/
def template : Template UInt8 Placeholder where
  mark := dollar
  key := Placeholder.keyword
  value := valueOf toString data
  key_head k := by cases k <;> exact ⟨_, _, rfl, by decide⟩
  prefix_free k k' h := by
    cases k <;> cases k' <;> first
      | rfl
      | exact absurd h (by decide)

variable {toString data} {s : SysString} {c : UInt8}

/-! ### The loop, piece by piece -/

theorem replaceLoop_skip (inDollar : Bool) (key : List UInt8) :
    replaceLoop toString data inDollar key.length (key ++ s) =
      replaceLoop toString data inDollar 0 s := by
  induction key with
  | nil => rfl
  | cons c key ih => simpa [replaceLoop] using ih

theorem replaceInString_char (hc : c ≠ dollar) :
    replaceInString toString data (c :: s) = c :: replaceInString toString data s := by
  simp [replaceInString, replaceLoop, hc]

theorem replaceInString_dollars :
    replaceInString toString data (dollar :: dollar :: s) =
      dollar :: replaceInString toString data s := by
  simp [replaceInString, replaceLoop]

theorem replaceInString_keyword (k : Placeholder) :
    replaceInString toString data (dollar :: (k.keyword ++ s)) =
      valueOf toString data k ++ replaceInString toString data s := by
  -- the keyword that is found is the one that is there
  have hf : Placeholder.all.find? (fun k' => k'.keyword.isPrefixOf (k.keyword ++ s)) = some k := by
    rcases hf : Placeholder.all.find? (fun k' => k'.keyword.isPrefixOf (k.keyword ++ s)) with _ | k'
    · have := List.find?_eq_none.1 hf k k.mem_all
      simp at this
    · have hp : k'.keyword <+: k.keyword ++ s := by simpa using List.find?_some hf
      obtain ⟨r, hr⟩ := hp
      rw [hf, (Template.key_append_inj (T := template toString data) hr).1]
  obtain ⟨c, cs, hk, hc⟩ := (template toString data).key_head k
  replace hk : k.keyword = c :: cs := hk
  replace hc : c ≠ dollar := hc
  rw [hk, List.cons_append] at hf
  have hskip : replaceLoop toString data false cs.length (cs ++ s) = _ := replaceLoop_skip false cs
  simp [replaceInString, replaceLoop, hk, hc, hf, hskip]

/-- A `$` that means nothing takes the next byte with it. -/
theorem replaceInString_stray (hc : c ≠ dollar) (hk : ∀ k : Placeholder, ¬ k.keyword <+: c :: s) :
    replaceInString toString data (dollar :: c :: s) = replaceInString toString data s := by
  have hf : Placeholder.all.find? (fun k => k.keyword.isPrefixOf (c :: s)) = none :=
    List.find?_eq_none.2 fun k _ => by simpa using hk k
  simp [replaceInString, replaceLoop, hc, hf]

/-! ### The loop and the rules -/

variable (toString data) in
/-- The loop against the expansion: it never writes more, and the same exactly if the only `$` that
means nothing is the last character. -/
structure Follows (s : SysString) (ps : List (Template.Piece UInt8 Placeholder)) : Prop where
  length_le : (replaceInString toString data s).length ≤ ((template toString data).expand ps).length
  eq_iff : (template toString data).expand ps = replaceInString toString data s ↔
    Template.Piece.stray ∉ ps.dropLast

/-- A piece for which the loop writes its value. -/
theorem Follows.cons {s' : SysString} {p : Template.Piece UInt8 Placeholder}
    {ps : List (Template.Piece UInt8 Placeholder)} (h : Follows toString data s ps)
    (hp : p ≠ .stray) (hs : replaceInString toString data s' =
      (template toString data).expandPiece p ++ replaceInString toString data s) :
    Follows toString data s' (p :: ps) := by
  have hlast : Template.Piece.stray ∉ (p :: ps).dropLast ↔ Template.Piece.stray ∉ ps.dropLast := by
    cases ps with
    | nil => simp
    | cons q ps => simp [hp.symm]
  have hexpand : (template toString data).expand (p :: ps) =
      (template toString data).expandPiece p ++ (template toString data).expand ps := rfl
  constructor
  · rw [hs, hexpand, List.length_append, List.length_append]
    exact Nat.add_le_add_left h.length_le _
  · rw [hs, hexpand, List.append_cancel_left_eq, hlast]
    exact h.eq_iff

/-- **The loop on a text**, piece by piece. -/
theorem follows_of_divides {ps : List (Template.Piece UInt8 Placeholder)}
    (h : (template toString data).Divides s ps) : Follows toString data s ps := by
  induction h with
  | nil => exact ⟨Nat.le_refl _, by simp [Template.expand, replaceInString, replaceLoop]⟩
  | char hc _ ih => exact ih.cons (by simp) (replaceInString_char hc)
  | escape _ ih => exact ih.cons (by simp) replaceInString_dollars
  | keyword k _ ih => exact ih.cons (by simp) (replaceInString_keyword k)
  | @stray s ps hs hk h ih =>
    cases s with
    | nil =>
      cases h
      exact ⟨Nat.le_refl _, by simp [Template.expand, Template.expandPiece, replaceInString,
        replaceLoop, template]⟩
    | cons c s =>
      -- the next byte stands in the expansion, and the loop drops it
      have hc : c ≠ dollar := fun he => hs (congrArg some he)
      have hdrop : replaceInString toString data (dollar :: c :: s) =
          replaceInString toString data s := replaceInString_stray hc hk
      have hlt : (replaceInString toString data s).length <
          ((template toString data).expand ps).length := by
        have := ih.length_le
        rw [replaceInString_char hc] at this
        exact this
      have hne : ps ≠ [] := by
        rintro rfl
        exact Nat.not_lt_zero _ hlt
      constructor
      · show (replaceInString toString data (dollar :: c :: s)).length ≤ _
        rw [hdrop]
        exact Nat.le_of_lt hlt
      · show _ = replaceInString toString data (dollar :: c :: s) ↔ _
        rw [hdrop, List.dropLast_cons_of_ne_nil hne]
        refine iff_of_false (fun he => ?_) (by simp)
        exact Nat.lt_irrefl _ (he ▸ hlt)

theorem replaceInString_of_notMem (hs : dollar ∉ s) : replaceInString toString data s = s := by
  induction s with
  | nil => rfl
  | cons c s ih =>
    have hc : c ≠ dollar := fun he => hs (he ▸ List.mem_cons_self)
    rw [replaceInString_char hc, ih fun hm => hs (List.mem_cons_of_mem _ hm)]

/-- **The expansion of a text**: `replaceInString` computes it exactly if no `$` of the text, except
at its end, is neither doubled nor before a keyword.  Without a `$` there is nothing to do, and so
the early return changes nothing. -/
theorem replaceInString_iff (toString : IpAddress → SysString) (data : ResponseToGet)
    (s : SysString) :
    ((template toString data).Rewrites s (replaceInString toString data s) ↔
      (template toString data).Clean s) ∧
    (dollar ∉ s → replaceInString toString data s = s) ∧
    (replacePlaceholdersInText toString data s).getD s = replaceInString toString data s := by
  obtain ⟨ps, h⟩ := (template toString data).exists_divides s
  refine ⟨?_, replaceInString_of_notMem, ?_⟩
  · rw [Template.rewrites_iff h, Template.clean_iff h]
    exact (follows_of_divides h).eq_iff
  · unfold replacePlaceholdersInText
    split_ifs with hs
    · rfl
    · exact (replaceInString_of_notMem hs).symm

/-- A host, for the examples. -/
def aHost : ResponseToGet where
  endpointIdentifier := ofLiteral "urn:uuid:9b2a0a4e-0b6c-4f5e-9a53-5a0e3a6f1d20"
  friendlyName := ofLiteral "a host"
  fullComputerName := ofLiteral "HOST/Workgroup:WORKGROUP"
  hostAddr := .v4 0x0A000001#32

/-- `ip::address::to_string()` of its address. -/
def dotted : IpAddress → SysString := fun _ => ofLiteral "10.0.0.1"

/-- A placeholder before other text, and an escape. -/
theorem rewrites_address :
    (template dotted aHost).Rewrites (ofLiteral "$IP_ADDR_$$")
        (replaceInString dotted aHost (ofLiteral "$IP_ADDR_$$")) ∧
      replaceInString dotted aHost (ofLiteral "ab") = ofLiteral "ab" := by
  have h : (template dotted aHost).Divides (ofLiteral "$IP_ADDR_$$")
      [.keyword .ipAddr, .char 95, .escape] :=
    Template.Divides.keyword (T := template dotted aHost) (s := [95, dollar, dollar])
      Placeholder.ipAddr (.char (by decide) (.escape .nil))
  refine ⟨(replaceInString_iff dotted aHost _).1.2 ⟨_, h, ?_⟩,
    (replaceInString_iff dotted aHost _).2.1 (by decide)⟩
  simp

/-- Of `a$b` only `a` remains, and not `ab`. -/
theorem stray_takes_next :
    (template dotted aHost).Rewrites (ofLiteral "a$b") (ofLiteral "ab") ∧
      replaceInString dotted aHost (ofLiteral "a$b") = ofLiteral "a" ∧
      ¬ (template dotted aHost).Rewrites (ofLiteral "a$b")
        (replaceInString dotted aHost (ofLiteral "a$b")) := by
  have h : (template dotted aHost).Divides (ofLiteral "a$b") [.char 97, .stray, .char 98] := by
    refine .char (by decide) (.stray (by decide) ?_ (.char (by decide) .nil))
    intro k
    cases k <;> decide
  refine ⟨⟨_, h, by decide⟩, by decide, ?_⟩
  rw [Template.rewrites_iff h]
  decide

/-! ### Escapes -/

/-- Doubled marks come out as they were, and what follows is not affected. -/
theorem replaceInString_escape_append (a : SysString) :
    replaceInString toString data ((template toString data).escape a ++ s) =
      a ++ replaceInString toString data s := by
  induction a with
  | nil => rfl
  | cons c a ih =>
    have hsplit : (template toString data).escape (c :: a) =
        (if c = dollar then [dollar, dollar] else [c]) ++ (template toString data).escape a := rfl
    rw [hsplit]
    split_ifs with hc
    · subst hc
      simp only [List.cons_append, List.nil_append]
      rw [replaceInString_dollars, ih]
    · simp only [List.cons_append, List.nil_append]
      rw [replaceInString_char hc, ih]

/-- **Escaping and substitution compose.**  Any text can be written, and after it any value, which
is not expanded again. -/
theorem replaceInString_escape (toString : IpAddress → SysString) (data : ResponseToGet) :
    (∀ a, replaceInString toString data ((template toString data).escape a) = a) ∧
    ∀ (a : SysString) (k : Placeholder) (b : SysString),
      replaceInString toString data
          ((template toString data).escape a ++ ([dollar] ++ (k.keyword ++ b))) =
        a ++ (valueOf toString data k ++ replaceInString toString data b) := by
  refine ⟨fun a => ?_, fun a k b => ?_⟩
  · rw [← List.append_nil ((template toString data).escape a), replaceInString_escape_append]
    exact List.append_nil a
  · rw [replaceInString_escape_append, List.singleton_append, replaceInString_keyword]

end WSDResponseBuilder

end Wsddn
