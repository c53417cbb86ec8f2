import Nominal.Proofs.Capitalised
import Nominal.Proofs.Derived.Names
import Nominal.Proofs.Detected
import Nominal.Proofs.Progress.Standing
import Nominal.Proofs.Tiled

/-!
# Diagnostics Point into the Source

A diagnostic is shown by cutting the source at its spans, and it hides the diagnostics in the
span that it says. So its spans have to lie in the source with their ends between characters,
and the one that it hides others in has to include the one that it shows.

The spans come from many places: the next token, the end of the last one, the delimiters that
are open, the end of the source, the members of a creation, the tokens and the nodes of a tree.
All but the open delimiters are the spans of some lexemes in a row, and such a span is fine. An
open delimiter was the next token when it was noted, and what is reported since stands behind
it. This has to hold on all ways through a source with mistakes, so it is an invariant of runs.

## Main definitions

* `Span.IsIn`: A span lies in a text, with its ends between characters.
* `Diagnostic.PointsInto`: All spans of a diagnostic lie in a text.
* `Lexeme.IsStretch`: A span of some lexemes in a row.
* `State.Points`: What a parser has to keep so that its reports point into the source.

## Theorems

* `Lexeme.IsStretch.isIn`: The span of some lexemes in a row lies in their text.
* `State.Points.run`: Every operation keeps what reports need.
* `relation_points`: So does every run.
* `pointsInto_of_mem_faults`: The mistakes in the members of a creation point into the source.
* `Site.isIn_focus`: What a finding points at lies in the source.
* `Document.diagnostics_pointInto`: All diagnostics of a document and all findings about it point
  into its source.
-/

namespace Nominal

open Syntax (Tree Lexeme Location)
open Text (Span)

namespace Text.Span

/-- A span lies in a text: its ends come one behind the other, none of them behind the end of
    the text, and both between two characters. -/
structure IsIn (text : String) (s : Span) : Prop where
  ordered : s.start ≤ s.stop
  within : s.stop ≤ text.utf8ByteSize
  start : (⟨s.start⟩ : String.Pos.Raw).IsValid text
  stop : (⟨s.stop⟩ : String.Pos.Raw).IsValid text

variable {text : String}

theorem isIn_empty {offset : Nat} (h : (⟨offset⟩ : String.Pos.Raw).IsValid text) :
    (empty offset).IsIn text :=
  ⟨Nat.le_refl _, h.le_utf8ByteSize, h, h⟩

/-- The span from the start of one span to the end of another one behind it. -/
theorem IsIn.upTo {a b : Span} (ha : a.IsIn text) (hb : b.IsIn text) (h : a.start ≤ b.stop) :
    (⟨a.start, b.stop⟩ : Span).IsIn text :=
  ⟨h, hb.within, ha.start, hb.stop⟩

end Text.Span

namespace Diagnostic

/-- All spans of a diagnostic lie in a source, and it may hide others where it is shown. -/
structure PointsInto (source : String) (d : Diagnostic) : Prop where
  span : d.span.IsIn source
  fix : ∀ f, d.fix = some f → f.span.IsIn source
  related : ∀ r ∈ d.related, r.span.IsIn source
  suppression : d.suppression.IsIn source
  covers : d.suppression.start ≤ d.span.start ∧ d.span.stop ≤ d.suppression.stop

variable {source : String}

/-- Where a diagnostic hides others, and makes its change, where it is shown, there is nothing else
    to see to but what it refers to. -/
theorem pointsInto_of_span {d : Diagnostic} (hspan : d.span.IsIn source)
    (hhides : d.suppression = d.span) (hfix : ∀ f, d.fix = some f → f.span = d.span)
    (hrelated : ∀ r ∈ d.related, r.span.IsIn source) : d.PointsInto source where
  span := hspan
  fix := by
    intro f hf
    rw [hfix f hf]
    exact hspan
  related := hrelated
  suppression := by
    rw [hhides]
    exact hspan
  covers := by
    rw [hhides]
    exact ⟨Nat.le_refl _, Nat.le_refl _⟩

theorem pointsInto_of {span : Span} (h : span.IsIn source) (kind : Kind) (detail : Option String) :
    ((of kind span).withDetail detail).PointsInto source :=
  pointsInto_of_span h rfl nofun nofun

end Diagnostic

/-! ### Lexemes in a row -/

namespace Syntax.Lexeme

/-- A span of some lexemes in a row, where the first one of all starts at an offset. -/
def IsStretch (start : Nat) (ls : List Lexeme) (span : Span) : Prop :=
  ∃ before inside behind, ls = before ++ inside ++ behind
    ∧ span = Span.ofWidth (start + widthOf before) (widthOf inside)

/-- The span of some lexemes in a row lies in their text. -/
theorem IsStretch.isIn {ls : List Lexeme} {span : Span} (h : IsStretch 0 ls span) :
    span.IsIn (textOf ls) := by
  rcases h with ⟨before, inside, behind, rfl, rfl⟩
  have hstart := isValid_widthOf before (inside ++ behind)
  have hstop := isValid_widthOf (before ++ inside) behind
  rw [widthOf_append] at hstop
  rw [← List.append_assoc] at hstart
  rw [Nat.zero_add]
  exact ⟨Nat.le_add_right _ _, hstop.le_utf8ByteSize, hstart, hstop⟩

/-- A stretch of a part is a stretch of the whole. -/
theorem IsStretch.of_part {start : Nat} {front middle back : List Lexeme} {span : Span}
    (h : IsStretch (start + widthOf front) middle span) :
    IsStretch start (front ++ middle ++ back) span := by
  rcases h with ⟨before, inside, behind, rfl, rfl⟩
  refine ⟨front ++ before, inside, behind ++ back, ?_, ?_⟩
  · simp only [List.append_assoc]
  · rw [widthOf_append, Nat.add_assoc]

end Syntax.Lexeme

namespace Syntax.Tree

/-- Trees side by side cover a stretch of their leaves, which is all of them. -/
theorem isStretch_leavesOf (start : Nat) (ts : List Tree) :
    Lexeme.IsStretch start (leavesOf ts) (Span.ofWidth start (widthOf ts)) :=
  ⟨[], leavesOf ts, [], (List.append_nil _).symm, by rw [← widthOf_eq]; rfl⟩

/-- A stretch of a node is a stretch of the trees around it. -/
theorem isStretch_of_node {start : Nat} {kind : Kind} {front ts back : List Tree} {span : Span}
    (h : Lexeme.IsStretch (start + widthOf front) (leavesOf ts) span) :
    Lexeme.IsStretch start (leavesOf (front ++ .node kind ts :: back)) span := by
  rw [leavesOf_append, leavesOf, leaves, ← List.append_assoc]
  rw [widthOf_eq] at h
  exact h.of_part

/-- The token of a node is a stretch of its leaves. -/
theorem isStretch_of_mem_tokensAt {start : Nat} {ts : List Tree} {t : Lexeme × Span}
    (h : t ∈ tokensAt start ts) : Lexeme.IsStretch start (leavesOf ts) t.2 := by
  induction ts generalizing start with
  | nil => cases h
  | cons u ts ih =>
      -- What stands behind the first tree is a part of the whole, with nothing behind it.
      have hbehind : ∀ {span}, Lexeme.IsStretch (start + u.width) (leavesOf ts) span →
          Lexeme.IsStretch start (leavesOf (u :: ts)) span := by
        intro span hspan
        rw [width_eq] at hspan
        rw [leavesOf, ← List.append_nil (u.leaves ++ leavesOf ts)]
        exact hspan.of_part
      cases u with
      | node kind children => exact hbehind (ih h)
      | token l =>
          rcases List.mem_cons.mp h with rfl | h
          · exact ⟨[], [l], leavesOf ts, rfl, rfl⟩
          · exact hbehind (ih h)

/-- What is a stretch of the leaves of a node is one of the whole tree. -/
theorem isStretch_of_mem_locations {t : Tree} {l : Location} (hl : l ∈ t.locations) {span : Span}
    (h : Lexeme.IsStretch l.node.start (leavesOf l.node.children) span) :
    Lexeme.IsStretch 0 t.leaves span := by
  rcases split_of_mem_locationsAt hl with ⟨before, behind, hleaves, hstart⟩
  rw [hleaves]
  rw [hstart] at h
  exact h.of_part

end Syntax.Tree

/-! ### Reports of the parser -/

namespace Grammar

variable {setting : Setting} {lexemes : List Lexeme}

/-- What a parser has to keep so that its reports point into the source. The lexemes to come are
    the last ones of the source, and what was noted on the way lies in it. -/
structure State.Points (setting : Setting) (lexemes : List Lexeme) (s : State) : Prop where
  sound : s.Sound setting
  cut : ∃ before, lexemes = before ++ s.rest ∧ s.offset = Lexeme.widthOf before
  opened : ∀ d ∈ s.delimiters, d.IsIn (Lexeme.textOf lexemes)
  lastEnd : ∀ offset, s.lastEnd = some offset →
    (⟨offset⟩ : String.Pos.Raw).IsValid (Lexeme.textOf lexemes)
  reported : ∀ d ∈ s.diagnostics, d.PointsInto (Lexeme.textOf lexemes)

theorem pointsInto_missingSemicolon {source : String} {offset : Nat}
    (h : (⟨offset⟩ : String.Pos.Raw).IsValid source) :
    (missingSemicolon offset).PointsInto source := by
  refine Diagnostic.pointsInto_of_span (Text.Span.isIn_empty h) rfl (fun f hf => ?_) nofun
  cases hf
  rfl

/-- An unclosed delimiter is shown, and may hide others, from where it was opened. -/
theorem pointsInto_unclosedDelimiter {source : String} {kind : Diagnostic.Kind}
    {span opening : Span} (hspan : span.IsIn source) (hopening : opening.IsIn source) :
    (unclosedDelimiter kind span opening).PointsInto source :=
  Diagnostic.pointsInto_of_span hspan rfl nofun (List.forall_mem_singleton.mpr hopening)

theorem points_initial (limits : Limits) (depth : Option Nat) :
    (State.initial limits lexemes).Points ⟨depth, Lexeme.widthOf lexemes⟩ lexemes where
  sound := ⟨Nat.zero_add _, nofun⟩
  cut := ⟨[], rfl, rfl⟩
  opened := nofun
  lastEnd := nofun
  reported := nofun

namespace State.Points

variable {s t : State}

/-- The source is as long as the setting says. -/
theorem length (h : s.Points setting lexemes) :
    setting.length = (Lexeme.textOf lexemes).utf8ByteSize := by
  rcases h.cut with ⟨before, hsplit, hoffset⟩
  rw [← h.sound.length, hoffset, ← Lexeme.widthOf_append, ← hsplit, Lexeme.widthOf_eq]

theorem skipTrivia (h : s.Points setting lexemes) : s.skipTrivia.Points setting lexemes where
  sound := h.sound.skipTrivia
  cut := by
    rcases h.cut with ⟨before, hsplit, hoffset⟩
    refine ⟨before ++ s.rest.takeWhile Lexeme.isTrivia, ?_, ?_⟩
    · rw [List.append_assoc, State.skipTrivia, List.takeWhile_append_dropWhile]
      exact hsplit
    · rw [Lexeme.widthOf_append, ← hoffset]
      rfl
  opened := h.opened
  lastEnd := h.lastEnd
  reported := h.reported

/-- Only the lexemes to come are of interest, and what was noted and reported. -/
theorem of_eq (h : s.Points setting lexemes) (hrest : t.rest = s.rest)
    (hoffset : t.offset = s.offset) (hlast : t.lastEnd = s.lastEnd)
    (hreported : t.diagnostics = s.diagnostics)
    (hdelimiters : ∀ d ∈ t.delimiters, d ∈ s.delimiters) : t.Points setting lexemes where
  sound := h.sound.of_eq hrest hoffset hdelimiters
  cut := by
    rw [hrest, hoffset]
    exact h.cut
  opened d hd := h.opened d (hdelimiters d hd)
  lastEnd := by
    rw [hlast]
    exact h.lastEnd
  reported := by
    rw [hreported]
    exact h.reported

/-- The next token lies in the source. -/
theorem isIn_nextSpan (h : s.Points setting lexemes) :
    (s.nextSpan setting).IsIn (Lexeme.textOf lexemes) := by
  rcases h.cut with ⟨before, hsplit, hoffset⟩
  refine Lexeme.IsStretch.isIn ?_
  rw [State.nextSpan]
  split
  · next hrest =>
      -- At the end of the source it is the empty stretch behind all lexemes.
      have hlength := h.sound.length
      rw [hrest, Lexeme.widthOf, Nat.add_zero, hoffset] at hlength
      refine ⟨before, [], [], ?_, ?_⟩
      · rw [List.append_nil, hsplit, hrest]
      · rw [← hlength, Nat.zero_add]
        rfl
  · next l ls hrest =>
      refine ⟨before, [l], ls, ?_, ?_⟩
      · rw [hsplit, hrest, List.append_assoc, List.singleton_append]
      · rw [hoffset, Nat.zero_add]
        rfl

/-- What a report at the next token hides lies in the source and includes the token. -/
theorem isIn_suppression (h : s.Points setting lexemes) :
    (s.suppression setting (s.nextSpan setting)).IsIn (Lexeme.textOf lexemes)
      ∧ (s.suppression setting (s.nextSpan setting)).start ≤ (s.nextSpan setting).start
      ∧ (s.nextSpan setting).stop ≤ (s.suppression setting (s.nextSpan setting)).stop := by
  have hnext := h.isIn_nextSpan
  rw [State.suppression]
  split
  · exact ⟨hnext, Nat.le_refl _, Nat.le_refl _⟩
  · next opening outer hdelimiters =>
      -- The delimiter was the next token once, and the next token is never behind the end.
      have hmem : opening ∈ s.delimiters := by
        rw [hdelimiters]
        exact List.mem_cons_self
      have hbefore := h.sound.delimiters opening hmem
      have hplace := h.sound.nextSpan
      have hend : (Span.empty setting.length).IsIn (Lexeme.textOf lexemes) := by
        rw [h.length]
        exact Text.Span.isIn_empty String.Pos.Raw.isValid_rawEndPos
      refine ⟨(h.opened opening hmem).upTo hend (hbefore.trans hplace.2.2), ?_, ?_⟩
      · rw [hplace.1]
        exact hbefore
      · rw [h.length]
        exact hnext.within

theorem reportAt (h : s.Points setting lexemes) (offset : Nat) {d : Diagnostic}
    (hd : d.PointsInto (Lexeme.textOf lexemes)) : (s.reportAt offset d).Points setting lexemes := by
  unfold State.reportAt
  split
  · exact h
  · exact {
      sound := h.sound.of_eq rfl rfl fun _ hmem => hmem
      cut := h.cut
      opened := h.opened
      lastEnd := h.lastEnd
      reported := List.forall_mem_append.mpr ⟨h.reported, List.forall_mem_singleton.mpr hd⟩ }

theorem spend (h : s.Points setting lexemes) : s.spend.Points setting lexemes := by
  unfold State.spend
  split
  · exact h
  · exact h.of_eq rfl rfl rfl rfl fun _ hd => hd
  · exact h.of_eq rfl rfl rfl rfl fun _ hd => hd

/-- When a token is taken, its end is noted, and open delimiters stay before the offset. -/
theorem takeLexeme (h : s.Points setting lexemes) {l : Lexeme} {ls : List Lexeme}
    (hrest : s.rest = l :: ls) : (s.takeLexeme l ls).Points setting lexemes := by
  -- Counting the token against the limit moves nothing.
  have hspent := h.spend
  rw [← rest_spend s] at hrest
  rcases hspent.cut with ⟨before, hsplit, hoffset⟩
  rw [hrest] at hsplit
  have hcut : lexemes = (before ++ [l]) ++ ls
      ∧ s.spend.offset + l.width = Lexeme.widthOf (before ++ [l]) := by
    rw [Lexeme.widthOf_append, hoffset, List.append_assoc]
    exact ⟨hsplit, rfl⟩
  exact {
    sound := {
      length := by
        rw [← hspent.sound.length, hrest, Lexeme.widthOf, ← Nat.add_assoc]
        rfl
      delimiters := by
        intro d hd
        exact Nat.le_add_right_of_le (hspent.sound.delimiters d hd) }
    cut := ⟨before ++ [l], hcut⟩
    opened := hspent.opened
    lastEnd := by
      intro offset hlast
      simp only [State.takeLexeme] at hlast
      split at hlast
      · exact hspent.lastEnd offset hlast
      · -- The token ends where the lexemes to come start.
        cases hlast
        have hvalid := Syntax.isValid_widthOf (before ++ [l]) ls
        rw [← hcut.1, ← hcut.2] at hvalid
        exact hvalid
    reported := hspent.reported }

/-- Every operation keeps what reports need. -/
theorem run {op : Op} {a : op.Answer} (hs : s.Points setting lexemes)
    (h : op.run setting s = .ok a t) : t.Points setting lexemes := by
  have hskip := hs.skipTrivia
  have hnext := hskip.isIn_nextSpan
  cases acts_run h with
  | glance hop looks => exact hskip.of_eq rfl rfl rfl rfl fun _ hd => hd
  | keep => exact hskip.of_eq rfl rfl rfl rfl fun _ hd => hd
  | take hrest => exact hs.takeLexeme hrest
  | @report kind detail =>
      -- The report is an ordinary one but for what it hides.
      rcases hskip.isIn_suppression with ⟨hhides, hcovers⟩
      exact hskip.reportAt _ { Diagnostic.pointsInto_of hnext kind detail with
        suppression := hhides
        covers := hcovers }
  | @semicolonBehind offset hlast =>
      exact hs.reportAt offset (pointsInto_missingSemicolon (hs.lastEnd offset hlast))
  | semicolonAhead => exact hskip.reportAt _ (pointsInto_missingSemicolon hnext.start)
  | opening =>
      refine { hskip with
        sound := ⟨hskip.sound.length, List.forall_mem_cons.mpr ⟨?_, hskip.sound.delimiters⟩⟩
        opened := List.forall_mem_cons.mpr ⟨hnext, hskip.opened⟩ }
      exact Nat.le_of_eq hskip.sound.nextSpan.1
  | closing => exact hs.of_eq rfl rfl rfl rfl fun _ hd => List.mem_of_mem_tail hd
  | noneOpen => exact hs
  | @unclosed kind opening outer next hopened hnext hordered =>
      have hopening : opening.IsIn (Lexeme.textOf lexemes) := by
        refine hs.opened opening ?_
        rw [hopened]
        exact List.mem_cons_self
      -- The delimiter is forgotten before the next token is looked for.
      have hclosed : { s with delimiters := outer }.Points setting lexemes := by
        refine hs.of_eq rfl rfl rfl rfl fun d hd => ?_
        rw [hopened]
        exact List.mem_cons_of_mem opening hd
      have hend : next.IsIn (Lexeme.textOf lexemes) := by
        rw [hnext]
        exact hclosed.skipTrivia.isIn_nextSpan
      exact hclosed.skipTrivia.reportAt _
        (pointsInto_unclosedDelimiter (hopening.upTo hend hordered) hopening)
  | tooDeep | deeper | back => exact hs.of_eq rfl rfl rfl rfl fun _ hd => hd

end State.Points

/-- Every run keeps what reports need. -/
theorem relation_points (setting : Setting) (lexemes : List Lexeme) :
    Relation setting fun s t => s.Points setting lexemes → t.Points setting lexemes where
  refl _ hs := hs
  trans hst htu hs := htu (hst hs)
  op _ _ _ _ h hs := hs.run h
  group g s t h hs := by
    -- A group collects trees, and nothing that is noted depends on them.
    have hbegin : (g.begin s).Points setting lexemes := by
      cases g <;> exact hs.of_eq rfl rfl rfl rfl fun _ hd => hd
    cases g <;> exact (h hbegin).of_eq rfl rfl rfl rfl fun _ hd => hd

/-- What the parser reports points into the source, whatever is wrong with the source. -/
theorem pointsInto_of_mem_parseLexemes {limits : Limits} {parsed : Parsed}
    (h : parseLexemes limits lexemes = .ok parsed) :
    ∀ d ∈ parsed.diagnostics, d.PointsInto (Lexeme.textOf lexemes) := by
  rw [parseLexemes] at h
  split at h
  · next u t hrun =>
      have hpoints := (relation_points ⟨limits.depth, Lexeme.widthOf lexemes⟩ lexemes).exec
        (fun hproduction => (relation_points _ lexemes).runProduction hproduction) hrun
        (points_initial limits limits.depth)
      rw [State.result] at h
      split at h
      · cases h
      · cases h
        exact hpoints.reported
  · cases h
  · cases h

end Grammar

/-! ### Mistakes in creations -/

namespace Program

/-- The mistakes in some members point at one of them. -/
theorem exists_of_mem_faultsBehind {before ms : List AnonMember} {d : Diagnostic}
    (h : d ∈ faultsBehind before ms) :
    ∃ m ∈ ms, ∃ kind detail, d = (Diagnostic.of kind m.span).withDetail detail := by
  induction ms generalizing before with
  | nil => cases h
  | cons m ms ih =>
      rw [faultsBehind, List.mem_append, Option.mem_toList] at h
      rcases h with hhere | hbehind
      · refine ⟨m, List.mem_cons_self, ?_⟩
        rw [AnonMember.fault?] at hhere
        split at hhere
        · cases hhere
          exact ⟨_, _, rfl⟩
        · split at hhere
          · cases hhere
            exact ⟨_, _, rfl⟩
          · cases hhere
      · rcases ih hbehind with ⟨m', hm', hd⟩
        exact ⟨m', List.mem_cons_of_mem m hm', hd⟩

/-- A member of a creation covers a stretch of the leaves of the creation. -/
theorem isStretch_of_mem_anonMembers {start : Nat} {ts : List Tree} {m : AnonMember}
    (h : m ∈ Part.anonMembers (Part.ofTrees start ts)) :
    Lexeme.IsStretch start (Tree.leavesOf ts) m.span := by
  rcases Part.exists_of_mem_anonMembers h with ⟨front, ms, back, rfl, hof⟩
  cases hof
  exact Tree.isStretch_of_node (Tree.isStretch_leavesOf _ ms)

/-- The mistakes in the members of a creation point into the source. -/
theorem pointsInto_of_mem_faults {t : Tree} {l : Location} (hl : l ∈ t.locations) {d : Diagnostic}
    (h : d ∈ l.creation.faults) : d.PointsInto t.text := by
  rcases exists_of_mem_faultsBehind h with ⟨m, hm, kind, detail, rfl⟩
  have hstretch := Tree.isStretch_of_mem_locations hl (isStretch_of_mem_anonMembers hm)
  exact Diagnostic.pointsInto_of hstretch.isIn kind detail

end Program

/-- What is reported of a tree when it is typed points into its text. -/
theorem Model.pointsInto_of_mem_ofTree {t : Tree} (ht : t.Conforms) {children : List Tree}
    (hroot : t = .node .root children) :
    ∀ d ∈ (Model.ofTree t).2, d.PointsInto t.text := by
  intro d hd
  -- Typing reports the mistakes in the order of the values, but each is one of a creation.
  have hreported := (Typing.reported_typeFile _ (Program.SourceFile.ofTree t) _).mem_iff.mp hd
  rcases List.mem_flatMap.mp hreported with ⟨x, hx, hfault⟩
  rcases (mem_creationsOfItems ht hroot).mp hx with ⟨l, hl, _, _, rfl⟩
  exact Program.pointsInto_of_mem_faults hl hfault

/-! ### Findings -/

/-- The tokens of a node lie in the source. -/
theorem Syntax.Node.isIn_of_token? {t : Tree} {l : Location} (hl : l ∈ t.locations)
    {kind : Syntax.Kind} {token : Lexeme × Span} (h : l.node.token? kind = some token) :
    token.2.IsIn t.text := by
  have hmem := List.mem_of_find?_eq_some h
  exact (Tree.isStretch_of_mem_locations hl (Tree.isStretch_of_mem_tokensAt hmem)).isIn

/-- What a finding points at lies in the source. -/
theorem Site.isIn_focus {m : Model} {t : Tree} {s : Site} (hs : s ∈ m.sites t) :
    s.focus.IsIn t.text := by
  have hlocation := Model.mem_locations_of_mem_sites hs
  have hspan : s.span.IsIn t.text :=
    (Tree.isStretch_of_mem_locations hlocation (Tree.isStretch_leavesOf _ _)).isIn
  rw [Site.focus]
  cases hdeclarator : s.declarator with
  | none =>
      dsimp only
      cases htoken : s.location.node.token? .kwNew with
      | none => exact hspan
      | some token => exact Syntax.Node.isIn_of_token? hlocation htoken
  | some declarator =>
      dsimp only
      cases htoken : declarator.node.token? .id with
      | none => exact hspan
      | some token =>
          exact Syntax.Node.isIn_of_token? (Model.mem_locations_of_declarator hs hdeclarator) htoken

/-- A finding points where its site says, and so does the change that it proposes. -/
theorem Rule.pointsInto_finding {source : String} {rule : Rule} {s : Site}
    (h : s.focus.IsIn source) : (rule.finding s).PointsInto source := by
  refine Diagnostic.pointsInto_of_span h rfl (fun f hf => ?_) nofun
  cases hf
  rfl

/-! ### Documents -/

/-- All diagnostics of a document and all findings about it point into its source, whatever is
    wrong with the source and however findings are worded. -/
theorem Document.diagnostics_pointInto {source : String} {d : Document}
    (hd : Document.parse source = .ok d) :
    (∀ x ∈ d.diagnostics, x.PointsInto source)
      ∧ ∀ rule, ∀ x ∈ d.findings rule, x.PointsInto source := by
  rcases Document.parse_eq_ok hd with
    ⟨_, hleaves, hconforms, _, parsed, hparsed, htree, hdiagnostics⟩
  rcases Grammar.kind_parseLexemes hparsed with ⟨children, hroot⟩
  have htext : d.tree.text = source := by
    rw [Tree.text, hleaves, Syntax.textOf_lex]
  rw [← htree] at hroot
  constructor
  · rw [hdiagnostics, List.forall_mem_append]
    constructor
    · have hreported := Grammar.pointsInto_of_mem_parseLexemes hparsed
      rwa [Syntax.textOf_lex] at hreported
    · have htyped := Model.pointsInto_of_mem_ofTree hconforms hroot
      rwa [htext] at htyped
  · -- Rules word the findings and have no say in where they point.
    intro rule x hx
    rcases List.mem_map.mp hx with ⟨s, hs, rfl⟩
    have hfocus := Site.isIn_focus hs
    rw [htext] at hfocus
    exact Rule.pointsInto_finding hfocus

/-- In a source that breaks off in a block there are reports of all sorts: one behind a token with
    a change to make, one that hides all behind the brace that is open, one that refers to the
    brace, one about a member without a name, and a finding. The accent takes two bytes. -/
theorem Document.diagnostics_pointInto_unfinished :
    ∃ d, Document.parse "/*é*/ \x7b f(new { 1 }, new { A = 2 }) return; ]" = .ok d
      ∧ d.diagnostics.map Diagnostic.kind
        = [.missingSemicolon, .expectedStatement, .unclosedBrace, .invalidAnonymousMember]
      ∧ (d.findings Rule.anonymousType).map Diagnostic.kind = [.anonymousTypeUsage]
      ∧ (∀ x ∈ d.diagnostics, x.PointsInto "/*é*/ \x7b f(new { 1 }, new { A = 2 }) return; ]")
      ∧ ∀ rule, ∀ x ∈ d.findings rule,
        x.PointsInto "/*é*/ \x7b f(new { 1 }, new { A = 2 }) return; ]" := by
  have hok : ((Document.parse "/*é*/ \x7b f(new { 1 }, new { A = 2 }) return; ]").toOption.any
      fun d => d.diagnostics.map Diagnostic.kind
          == [.missingSemicolon, .expectedStatement, .unclosedBrace, .invalidAnonymousMember]
        && (d.findings Rule.anonymousType).map Diagnostic.kind == [.anonymousTypeUsage])
      = true := by
    decide +kernel
  cases hd : Document.parse "/*é*/ \x7b f(new { 1 }, new { A = 2 }) return; ]" with
  | error failure =>
      rw [hd] at hok
      cases hok
  | ok d =>
      simp only [hd, Except.toOption, Option.any_some, Bool.and_eq_true, beq_iff_eq] at hok
      exact ⟨d, rfl, hok.1, hok.2, Document.diagnostics_pointInto hd⟩

end Nominal
