/-
Templates of plain text and bare placeholders. An outline is the text before the first placeholder and, for each
placeholder, its name with the text behind it; `text` writes it as a template, `fill` puts values in the places of the
placeholders. A name is any text that is read as a placeholder of that name when it stands in braces (`IsName`).

Results:
- `tokenize_text`: the template is read as the tokens of its outline.
- `writes_fill`, `unique_fill`: with a slash behind every placeholder but perhaps the last, the filled path has one
  decomposition, and neither has the path without its last slash.
-/
import UriRouting.Template.Tokenize
import UriRouting.Proofs.Results
import UriRouting.Proofs.Template.Readings

namespace UriRouting.Template

open Results

/-- in braces of its own the text is read as the bare placeholder of that name -/
def IsName (n : Text) : Prop := tokenize (Token.parameter n none).print = .ok [.parameter n none]

instance (n : Text) : Decidable (IsName n) :=
  inferInstanceAs (Decidable (_ = _))

/-- plain text, and placeholders each with the plain text behind it -/
structure Outline where
  first : Text
  parts : List (Text × Text)
deriving DecidableEq, Repr

namespace Outline

def text (o : Outline) : Text := o.first ++ o.parts.flatMap fun part => '{' :: part.1 ++ '}' :: part.2

def names (o : Outline) : List Text := o.parts.map Prod.fst

/-- the path with values in the places of the placeholders -/
def fill (o : Outline) (values : List Text) : Text := o.first ++ (o.parts.zip values).flatMap fun x => x.2 ++ x.1.2

/-- the tokens of the placeholders and of the texts behind them -/
def partTokens (parts : List (Text × Text)) : List Token :=
  parts.flatMap fun part => .parameter part.1 none :: flush part.2 []

def tokens (o : Outline) : List Token := flush o.first (partTokens o.parts)

/-- plain texts and different names, one slash at the start, and a slash behind every placeholder; behind the last there
may be nothing -/
structure IsSegmented (o : Outline) : Prop where
  plainFirst : Regex.IsLiteral o.first
  plain : ∀ part ∈ o.parts, Regex.IsLiteral part.2
  names : ∀ part ∈ o.parts, IsName part.1
  distinct : o.names.Nodup
  start : ∃ rest, o.first = '/' :: rest ∧ rest.head? ≠ some '/'
  inner : ∀ part ∈ o.parts.dropLast, part.2.head? = some '/'
  last : ∀ part ∈ o.parts, part.2 = [] ∨ part.2.head? = some '/'

end Outline

/-! ## Names -/

theorem length_trim_le (t : Text) : t.trim.length ≤ t.length := by
  calc
    t.trim.length = ((t.dropWhile isBlank).reverse.dropWhile isBlank).length := List.length_reverse
    _ ≤ (t.dropWhile isBlank).reverse.length := (List.dropWhile_sublist _).length_le
    _ = (t.dropWhile isBlank).length := List.length_reverse
    _ ≤ t.length := (List.dropWhile_sublist _).length_le

/-- a placeholder's name is no longer than what stands in its braces -/
theorem length_le_of_parameter? {inner n : Text} {constraint : Option Text}
    (h : parameter? inner = some (.parameter n constraint)) : n.length ≤ inner.length := by
  have hcut : (inner.cutAt ':').1.length ≤ inner.length := by
    conv_rhs => rw [inner.cutAt_append ':', List.length_append]
    exact Nat.le_add_right _ _
  have hname : (inner.cutAt ':').1.trim = n := by
    simp only [parameter?] at h
    split at h
    · simp at h
    · split at h <;> exact (Token.parameter.inj (Option.some.inj h)).1
  rw [← hname]
  exact (length_trim_le _).trans hcut

theorem flush_of_ne_nil {pending : Text} (h : pending ≠ []) (tokens : List Token) :
    flush pending tokens = .literal pending :: tokens := by
  rw [flush, if_neg]
  simpa using h

theorem flush_eq_append (pending : Text) (tokens : List Token) : flush pending tokens = flush pending [] ++ tokens := by
  cases pending <;> rfl

/-- text that is pending is the start of a token -/
theorem gather_pending {pending : Text} (hp : pending ≠ []) {position : ℕ} {segments : List Segment} {tokens : List Token}
    (h : gather pending position segments = .ok tokens) : ∃ t more, tokens = .literal (pending ++ t) :: more := by
  induction segments generalizing pending position tokens with
  | nil =>
    obtain rfl := Except.ok.inj h
    exact ⟨[], [], by rw [flush_of_ne_nil hp, List.append_nil]⟩
  | cons segment segments ih =>
    have hmore : ∀ {position tokens} (t : Text), gather (pending ++ t) position segments = .ok tokens →
        ∃ u more, tokens = .literal (pending ++ u) :: more := by
      intro position tokens t ht
      obtain ⟨u, more, rfl⟩ := ih (by simp [hp]) ht
      exact ⟨t ++ u, more, by rw [List.append_assoc]⟩
    cases segment with
    | escape c => exact hmore _ h
    | plain c => exact hmore _ h
    | unclosed rest => simp [gather] at h
    | braces inner =>
      unfold gather at h
      split at h
      · exact hmore _ h
      · split at h
        · simp at h
        · rename_i token htoken
          obtain ⟨tokens', -, rfl⟩ := map_eq_ok_iff.1 h
          exact ⟨[], _, by rw [flush_of_ne_nil hp, List.append_nil]⟩

theorem segments_open (rest : Text) : segments ('{' :: rest) = match innerLength 0 rest with
    | none => [.unclosed rest]
    | some n => .braces (rest.take n) :: segments (rest.drop (n + 1)) := by
  cases h : innerLength 0 rest with
  | none => simp only [segments, h]
  | some n => simp only [segments, h]

/-- what reading a name in braces comes to: the braces balance around it, and it is no quantifier -/
theorem IsName.spec {n : Text} (h : IsName n) :
    innerLength 0 (n ++ ['}']) = some n.length ∧ isQuantifier n = false ∧ parameter? n = some (.parameter n none) := by
  have hprint : (Token.parameter n none).print = '{' :: (n ++ ['}']) := rfl
  rw [IsName, tokenize, hprint, segments_open] at h
  split at h
  · simp [gather] at h
  · rename_i k hk
    have hle : k ≤ n.length := by
      obtain ⟨rest, hrest⟩ := innerLength_closes hk
      have := congrArg List.length hrest
      simp only [List.length_drop, List.length_append, List.length_cons, List.length_nil] at this
      omega
    rw [List.take_append_of_le_length hle] at h
    simp only [gather, List.nil_append] at h
    split at h
    · -- a quantifier would be literal text
      have hne : (Segment.braces (n.take k)).text ≠ [] := by simp [Segment.text]
      obtain ⟨t, more, hliteral⟩ := gather_pending hne h
      simp at hliteral
    · rename_i hquantifier
      split at h
      · simp at h
      · rename_i token htoken
        obtain ⟨tokens, -, he⟩ := map_eq_ok_iff.1 h
        obtain ⟨rfl, -⟩ := List.cons.inj he
        have hlength := length_le_of_parameter? htoken
        rw [List.length_take] at hlength
        obtain rfl : k = n.length := by omega
        rw [List.take_length] at hquantifier htoken
        exact ⟨hk, by simpa using hquantifier, htoken⟩

/-- what balances a brace balances it whatever stands behind -/
theorem innerLength_append {depth : ℕ} {t : Text} {n : ℕ} (h : innerLength depth t = some n) (w : Text) :
    innerLength depth (t ++ w) = some n := by
  fun_induction innerLength depth t generalizing n with
  | case1 | case2 => simp at h
  | case5 => simpa [innerLength] using h
  | case3 depth c rest ih =>
    obtain ⟨m, hm, rfl⟩ := Option.map_eq_some_iff.1 h
    simp [innerLength, ih hm]
  | case4 depth rest ih =>
    obtain ⟨m, hm, rfl⟩ := Option.map_eq_some_iff.1 h
    simp [innerLength, ih hm]
  | case6 depth rest ih =>
    obtain ⟨m, hm, rfl⟩ := Option.map_eq_some_iff.1 h
    simp [innerLength, ih hm]
  | case7 depth c rest h1 h2 h3 h4 h5 ih =>
    obtain ⟨m, hm, rfl⟩ := Option.map_eq_some_iff.1 h
    have hescape : c ≠ '\\' := by
      rintro rfl
      cases rest with
      | nil => exact h1 rfl rfl
      | cons d rest => exact h2 d rest rfl rfl
    rw [List.cons_append, innerLength, ih hm]
    · rfl
    · exact fun hc _ => hescape hc
    · exact fun _ _ hc _ => hescape hc
    · exact h3
    · exact h4
    · exact h5

/-! ## The tokens of an outline -/

/-- plain text is cut into its characters -/
theorem segments_text_append {t : Text} (ht : Regex.IsLiteral t) (rest : Text) :
    segments (t ++ rest) = t.map Segment.plain ++ segments rest := by
  induction t with
  | nil => rfl
  | cons c t ih =>
    obtain ⟨hc, ht⟩ := List.forall_mem_cons.1 ht
    obtain ⟨hescape, -, -, -, -, -, -, hbrace, -⟩ := Regex.isPlain_iff.1 hc
    rw [List.cons_append, segments, ih ht]
    · rfl
    · exact fun he _ => hescape he
    · exact fun _ _ he _ => hescape he
    · exact hbrace

theorem gather_plain (t pending : Text) (position : ℕ) (segments : List Segment) :
    gather pending position (t.map Segment.plain ++ segments) = gather (pending ++ t) (position + t.length) segments := by
  induction t generalizing pending position with
  | nil => simp
  | cons c t ih =>
    rw [List.map_cons, List.cons_append, gather, ih]
    · have hposition : position + (Segment.plain c).text.length + t.length = position + (c :: t).length := by
        simp only [Segment.text, List.length_cons, List.length_nil]
        omega
      rw [hposition, List.append_assoc]
      rfl
    · simp
    · simp

/-- a placeholder in braces, behind pending text -/
theorem gather_braces {inner : Text} {token : Token} (hlength : innerLength 0 (inner ++ ['}']) = some inner.length)
    (hquantifier : isQuantifier inner = false) (hparameter : parameter? inner = some token) (pending : Text)
    (position : ℕ) (rest : Text) :
    gather pending position (segments ('{' :: inner ++ '}' :: rest)) =
      (gather [] (position + inner.length + 2) (segments rest)).map fun tokens => flush pending (token :: tokens) := by
  have hclose : innerLength 0 (inner ++ '}' :: rest) = some inner.length := by
    have := innerLength_append hlength rest
    rwa [List.append_assoc] at this
  have hdrop : (inner ++ '}' :: rest).drop (inner.length + 1) = rest := by
    rw [← List.drop_drop, List.drop_left]
    rfl
  rw [List.cons_append, segments_open, hclose]
  simp only [List.take_left, hdrop, gather, hquantifier, hparameter, Bool.false_eq_true, if_false]

/-- a name in braces, behind pending text -/
theorem gather_name {n : Text} (hn : IsName n) (pending : Text) (position : ℕ) (rest : Text) :
    gather pending position (segments ('{' :: n ++ '}' :: rest)) =
      (gather [] (position + n.length + 2) (segments rest)).map
        fun tokens => flush pending (.parameter n none :: tokens) := by
  obtain ⟨hlength, hquantifier, hparameter⟩ := hn.spec
  exact gather_braces hlength hquantifier hparameter pending position rest

namespace Outline

/-- the template text of placeholders and of the texts behind them -/
def partText (parts : List (Text × Text)) : Text := parts.flatMap fun part => '{' :: part.1 ++ '}' :: part.2

theorem partTokens_cons (part : Text × Text) (parts : List (Text × Text)) :
    partTokens (part :: parts) = .parameter part.1 none :: flush part.2 (partTokens parts) := by
  rw [flush_eq_append]
  simp [partTokens]

theorem gather_partText {parts : List (Text × Text)} (hplain : ∀ part ∈ parts, Regex.IsLiteral part.2)
    (hnames : ∀ part ∈ parts, IsName part.1) (pending : Text) (position : ℕ) :
    gather pending position (segments (partText parts)) = .ok (flush pending (partTokens parts)) := by
  induction parts generalizing pending position with
  | nil => simp [partText, partTokens, segments, gather]
  | cons part parts ih =>
    obtain ⟨hpart, hplain⟩ := List.forall_mem_cons.1 hplain
    obtain ⟨hname, hnames⟩ := List.forall_mem_cons.1 hnames
    have hsplit : partText (part :: parts) = '{' :: part.1 ++ '}' :: (part.2 ++ partText parts) := by
      simp [partText]
    have hrest : gather [] (position + part.1.length + 2) (segments (part.2 ++ partText parts)) =
        .ok (flush part.2 (partTokens parts)) := by
      rw [segments_text_append hpart, gather_plain, List.nil_append, ih hplain hnames]
    rw [hsplit, gather_name hname, hrest, partTokens_cons]
    rfl

/-- **The template of an outline is read as its tokens** -/
theorem tokenize_text {o : Outline} (h : o.IsSegmented) : tokenize o.text = .ok o.tokens := by
  have hsplit : o.text = o.first ++ partText o.parts := rfl
  rw [tokenize, hsplit, segments_text_append h.plainFirst, gather_plain, List.nil_append,
    gather_partText h.plain h.names, tokens]

theorem isSimple_of_mem_flush {pending : Text} (hp : Regex.IsLiteral pending) {tokens : List Token}
    (ht : ∀ t ∈ tokens, t.IsSimple) : ∀ t ∈ flush pending tokens, t.IsSimple := by
  unfold flush
  split
  · exact ht
  · exact List.forall_mem_cons.2 ⟨hp, ht⟩

theorem isSimple_of_mem_tokens {o : Outline} (h : o.IsSegmented) : ∀ t ∈ o.tokens, t.IsSimple := by
  apply isSimple_of_mem_flush h.plainFirst
  intro t ht
  obtain ⟨part, hpart, ht⟩ := List.mem_flatMap.1 ht
  rcases List.mem_cons.1 ht with rfl | ht
  · rfl
  · exact isSimple_of_mem_flush (h.plain part hpart) (by simp) t ht

theorem names_flush (pending : Text) (tokens : List Token) :
    Template.names (flush pending tokens) = Template.names tokens := by
  unfold flush
  split <;> rfl

theorem names_tokens (o : Outline) : Template.names o.tokens = o.names := by
  have hparts : ∀ parts, Template.names (partTokens parts) = parts.map Prod.fst := by
    intro parts
    induction parts with
    | nil => rfl
    | cons part parts ih =>
      have hnone : Template.names (flush part.2 []) = [] := names_flush part.2 []
      simp only [Template.names, partTokens, List.flatMap_cons, List.filterMap_append, List.filterMap_cons,
        Token.name?, List.map_cons, List.cons_append] at ih hnone ⊢
      rw [ih, hnone]
      rfl
  rw [tokens, names_flush, hparts]
  rfl

/-! ## Decompositions of a filled outline -/

/-- the path of the values, each with the text behind its placeholder -/
def fillParts (parts : List (Text × Text)) (values : List Text) : Text :=
  (parts.zip values).flatMap fun x => x.2 ++ x.1.2

/-- a value that fits a bare placeholder -/
def Fits (v : Text) : Prop := v ≠ [] ∧ '/' ∉ v

theorem writes_flush {t : Text} {tokens : List Token} {values : List Text} {path : Text} :
    Writes (flush t tokens) values path ↔ ∃ rest, path = t ++ rest ∧ Writes tokens values rest := by
  cases t with
  | nil =>
    refine ⟨?_, ?_⟩
    · intro h
      exact ⟨path, rfl, h⟩
    · intro h
      obtain ⟨rest, he, hwrites⟩ := h
      rw [he]
      exact hwrites
  | cons c t =>
    rw [flush_of_ne_nil (List.cons_ne_nil c t)]
    refine ⟨?_, ?_⟩
    · intro h
      obtain _ | @⟨_, _, _, rest, h⟩ := h
      exact ⟨rest, rfl, h⟩
    · intro hwrites
      obtain ⟨rest, rfl, h⟩ := hwrites
      exact .literal _ h

theorem writes_parameter {n : Text} {tokens : List Token} {values : List Text} {path : Text} :
    Writes (.parameter n none :: tokens) values path ↔
      ∃ v rest others, values = v :: others ∧ path = v ++ rest ∧ Fits v ∧ Writes tokens others rest := by
  refine ⟨?_, ?_⟩
  · intro h
    obtain _ | _ | @⟨_, _, s, v, _, others, rest, hs, hv, h⟩ := h
    obtain rfl := Option.some.inj hs
    exact ⟨v, rest, others, rfl, rfl, Slot.bare_admits.1 hv, h⟩
  · intro hwrites
    obtain ⟨v, rest, others, rfl, rfl, hv, h⟩ := hwrites
    exact .parameter n rfl (Slot.bare_admits.2 hv) h

theorem writes_fillParts {parts : List (Text × Text)} {values : List Text} (hlength : values.length = parts.length)
    (hfits : ∀ v ∈ values, Fits v) : Writes (partTokens parts) values (fillParts parts values) := by
  induction parts generalizing values with
  | nil =>
    obtain rfl := List.length_eq_zero_iff.1 hlength
    exact .nil
  | cons part parts ih =>
    cases values with
    | nil => simp at hlength
    | cons v values =>
      obtain ⟨hv, hfits⟩ := List.forall_mem_cons.1 hfits
      rw [partTokens_cons]
      refine writes_parameter.2 ⟨v, part.2 ++ fillParts parts values, values, rfl, ?_, hv, ?_⟩
      · simp [fillParts]
      · exact writes_flush.2 ⟨_, rfl, ih (by simpa using hlength) hfits⟩

theorem writes_fill {o : Outline} {values : List Text} (hlength : values.length = o.parts.length)
    (hfits : ∀ v ∈ values, Fits v) : Writes o.tokens values (o.fill values) :=
  writes_flush.2 ⟨_, rfl, writes_fillParts hlength hfits⟩

/-- a text is cut at its first slash in one way -/
theorem append_slash_inj {v w x y : Text} (hv : '/' ∉ v) (hw : '/' ∉ w) (h : v ++ '/' :: x = w ++ '/' :: y) :
    v = w ∧ x = y := by
  induction v generalizing w with
  | nil =>
    cases w with
    | nil => exact ⟨rfl, (List.cons.inj h).2⟩
    | cons d w => exact absurd ((List.cons.inj h).1 ▸ List.mem_cons_self) hw
  | cons c v ih =>
    cases w with
    | nil => exact absurd ((List.cons.inj h).1 ▸ List.mem_cons_self) hv
    | cons d w =>
      obtain ⟨rfl, htail⟩ := List.cons.inj h
      obtain ⟨rfl, rfl⟩ := ih (List.not_mem_of_not_mem_cons hv) (List.not_mem_of_not_mem_cons hw) htail
      exact ⟨rfl, rfl⟩

/-- behind a placeholder a slash ends the value, and behind the last one the path ends it -/
theorem unique_fillParts {parts : List (Text × Text)} (hinner : ∀ part ∈ parts.dropLast, part.2.head? = some '/')
    (hlast : ∀ part ∈ parts, part.2 = [] ∨ part.2.head? = some '/') {values others : List Text}
    (hlength : values.length = parts.length) (hfits : ∀ v ∈ values, Fits v) {path rest : Text}
    (hrest : rest = [] ∨ rest = ['/']) (hpath : fillParts parts values = path ++ rest)
    (h : Writes (partTokens parts) others path) : others = values ∧ rest = [] := by
  induction parts generalizing values others path with
  | nil =>
    obtain rfl := List.length_eq_zero_iff.1 hlength
    cases h
    exact ⟨rfl, (List.append_eq_nil_iff.1 hpath.symm).2⟩
  | cons part parts ih =>
    cases values with
    | nil => simp at hlength
    | cons v values =>
      obtain ⟨hv, hfits⟩ := List.forall_mem_cons.1 hfits
      rw [partTokens_cons] at h
      obtain ⟨w, more, others, rfl, rfl, hw, h⟩ := writes_parameter.1 h
      obtain ⟨more, rfl, hmore⟩ := writes_flush.1 h
      have hsplit : v ++ (part.2 ++ fillParts parts values) = w ++ (part.2 ++ (more ++ rest)) := by
        rw [← List.append_assoc part.2 more, ← List.append_assoc w, ← hpath]
        simp [fillParts]
      rcases hlast part List.mem_cons_self with hempty | hslash
      · -- nothing stands behind the last placeholder
        have hnil : parts = [] := by
          cases parts with
          | nil => rfl
          | cons next parts =>
            have := hinner part List.mem_cons_self
            simp [hempty] at this
        subst hnil
        cases hmore
        obtain rfl := List.length_eq_zero_iff.1 (by simpa using hlength : values.length = 0)
        rw [hempty] at hsplit
        simp only [fillParts, List.zip_nil_left, List.flatMap_nil, List.append_nil, List.nil_append] at hsplit
        rcases hrest with rfl | rfl
        · exact ⟨by rw [hsplit, List.append_nil], rfl⟩
        · exact absurd (hsplit ▸ by simp : '/' ∈ v) hv.2
      · obtain ⟨behind, hbehind⟩ : ∃ behind, part.2 = '/' :: behind := by
          cases hpart : part.2 with
          | nil => simp [hpart] at hslash
          | cons c behind => exact ⟨behind, by simpa [hpart] using hslash⟩
        rw [hbehind, List.cons_append, List.cons_append] at hsplit
        obtain ⟨rfl, htail⟩ := append_slash_inj hv.2 hw.2 hsplit
        have hinner' : ∀ part ∈ parts.dropLast, part.2.head? = some '/' := by
          intro q hq
          cases parts with
          | nil => simp at hq
          | cons next parts => exact hinner q (List.mem_cons_of_mem _ hq)
        obtain ⟨rfl, hnil⟩ := ih hinner' (fun q hq => hlast q (List.mem_cons_of_mem _ hq)) (by simpa using hlength) hfits
          (List.append_cancel_left htail) hmore
        exact ⟨rfl, hnil⟩

/-- **A filled outline has one decomposition**, and the path without its last slash has none -/
theorem unique_fill {o : Outline} (ho : o.IsSegmented) {values others : List Text}
    (hlength : values.length = o.parts.length) (hfits : ∀ v ∈ values, Fits v) {path rest : Text}
    (hrest : rest = [] ∨ rest = ['/']) (hpath : o.fill values = path ++ rest) (h : Writes o.tokens others path) :
    others = values ∧ rest = [] := by
  obtain ⟨more, rfl, hmore⟩ := writes_flush.1 h
  have hwhole : o.first ++ fillParts o.parts values = o.first ++ (more ++ rest) := by
    rw [← List.append_assoc, ← hpath]
    rfl
  have htail : fillParts o.parts values = more ++ rest := List.append_cancel_left hwhole
  exact unique_fillParts ho.inner ho.last hlength hfits hrest htail hmore

end Outline

end UriRouting.Template
