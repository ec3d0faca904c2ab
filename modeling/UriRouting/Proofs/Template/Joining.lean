/-
Templates joined like the pieces of a URI. Joining cuts slashes off both sides without regard to escapes or braces. It cuts
no brace group, since a group ends in its brace; where it cuts the slash of an escape pair, the slash that it puts in takes
that place. So the scan is between two pieces behind the seam, whatever the two templates are.

Results:
- `tokenized_iff`: a template has tokens when every piece of it is sound, and their placeholders are those of the pieces.
- `exists_seam`: what a scan meets in front of the seam, and that behind it the scan starts anew.
- `tokenized_join`, `tokenized_foldr_join`: the placeholders of templates joined are those of each, in order.
-/
import UriRouting.Proofs.Template.Segmentation
import UriRouting.Proofs.Uri.Joining

namespace UriRouting.Template

open Results

/-! ## Placeholders -/

def placeholders (tokens : List Token) : List Token := tokens.filter (¬·.IsLiteral)

theorem placeholders_flush (pending : Text) (tokens : List Token) :
    placeholders (flush pending tokens) = placeholders tokens := by
  rw [flush]
  split
  · rfl
  · exact List.filter_cons_of_neg (by simp [Token.IsLiteral])

theorem names_placeholders (tokens : List Token) : names (placeholders tokens) = names tokens := by
  induction tokens with
  | nil => rfl
  | cons token tokens ih =>
    cases token with
    | literal t => exact ih
    | parameter n k => exact congrArg (n :: ·) ih

/-- the placeholder that a piece makes, if it makes one -/
def Segment.token? : Segment → Option Token
  | escape _ | plain _ | unclosed _ => none
  | braces inner => if IsQuantifier inner then none else parameter? inner

theorem Segment.IsLiteral.token?_eq {s : Segment} (h : s.IsLiteral) : s.token? = none := by
  cases s with
  | braces inner => exact if_pos h
  | _ => rfl

theorem placeholders_gather {pending : Text} {position : ℕ} {pieces : List Segment} {tokens : List Token}
    (h : gather pending position pieces = .ok tokens) : placeholders tokens = pieces.filterMap Segment.token? := by
  induction pieces generalizing pending position tokens with
  | nil =>
    obtain rfl := Except.ok.inj h
    exact placeholders_flush pending []
  | cons s pieces ih =>
    rcases s.cases_sound with hliteral | ⟨inner, rfl, hquantifier, hname⟩ | hfault
    · rw [gather_literal hliteral] at h
      rw [List.filterMap_cons_none hliteral.token?_eq, ih h]
    · rw [gather_parameter hquantifier hname] at h
      obtain ⟨more, hmore, rfl⟩ := map_eq_ok_iff.1 h
      have htoken : (Segment.braces inner).token? =
          some (.parameter (inner.cutAt ':').1.trim (constraintOf (inner.cutAt ':').2)) := by
        rw [Segment.token?, if_neg hquantifier, parameter?_eq, if_neg hname]
      rw [placeholders_flush, List.filterMap_cons_some htoken, ← ih hmore]
      exact List.filter_cons_of_pos (by simp [Token.IsLiteral])
    · obtain ⟨f, hf⟩ := hfault position
      rw [gather_fault hf] at h
      cases h

theorem gather_isOk_iff (pending : Text) (position : ℕ) {pieces : List Segment} :
    (∃ tokens, gather pending position pieces = .ok tokens) ↔ ∀ s ∈ pieces, s.IsSound := by
  induction pieces generalizing pending position with
  | nil => exact ⟨fun _ s hs => absurd hs List.not_mem_nil, fun _ => ⟨_, rfl⟩⟩
  | cons s pieces ih =>
    rw [List.forall_mem_cons]
    by_cases hsound : s.IsSound
    · obtain ⟨pending', g, hgather⟩ := gather_sound hsound pending position pieces
      rw [hgather, ← ih pending' (position + s.text.length)]
      cases gather pending' (position + s.text.length) pieces <;> simp [hsound, Except.map]
    · obtain ⟨f, hf⟩ := s.exists_fault hsound position
      rw [gather_fault hf]
      simp [hsound]

/-- the template has tokens, with these placeholders among them -/
def Tokenized (t : Text) (parameters : List Token) : Prop :=
  ∃ tokens, tokenize t = .ok tokens ∧ placeholders tokens = parameters

instance (t : Text) (parameters : List Token) : Decidable (Tokenized t parameters) :=
  match h : tokenize t with
  | .error _ => .isFalse fun ⟨_, htokens, _⟩ => by simp [h] at htokens
  | .ok tokens => decidable_of_iff (placeholders tokens = parameters) (by simp [Tokenized, h])

/-- **A template has tokens when all its pieces are sound**, and their placeholders are those of the pieces -/
theorem tokenized_iff {t : Text} {parameters : List Token} : Tokenized t parameters ↔
    (∀ s ∈ segments t, s.IsSound) ∧ (segments t).filterMap Segment.token? = parameters := by
  rw [← gather_isOk_iff [] 0]
  constructor
  · rintro ⟨tokens, htokens, rfl⟩
    exact ⟨⟨tokens, htokens⟩, (placeholders_gather htokens).symm⟩
  · rintro ⟨⟨tokens, htokens⟩, rfl⟩
    exact ⟨tokens, htokens, placeholders_gather htokens⟩

/-! ## The seam -/

theorem isSound_plain (c : Char) : (Segment.plain c).IsSound := Segment.IsLiteral.isSound trivial

theorem isSound_escape (c : Char) : (Segment.escape c).IsSound := Segment.IsLiteral.isSound trivial

theorem segments_slash (rest : Text) : segments ('/' :: rest) = .plain '/' :: segments rest :=
  segments_plain (by decide) rest

/-- slashes at the start of a template make no placeholder -/
theorem tokenized_dropLeading {t : Text} {parameters : List Token} (h : Tokenized t parameters) :
    Tokenized (t.dropLeading '/') parameters := by
  induction t with
  | nil => exact h
  | cons c t ih =>
    rw [Uri.dropLeading_cons]
    split
    · rename_i hc
      rw [hc, tokenized_iff, segments_slash, List.forall_mem_cons] at h
      exact ih (tokenized_iff.2 ⟨h.1.2, h.2⟩)
    · exact h

/-- what a scan meets in a template up to the slash that joins another one to it -/
structure Seam (t : Text) (parameters : List Token) (front : List Segment) : Prop where
  /-- behind the slash the scan starts anew -/
  scan : ∀ rest, segments (t.dropTrailing '/' ++ '/' :: rest) = front ++ segments rest
  sound : ∀ s ∈ front, s.IsSound
  made : front.filterMap Segment.token? = parameters

namespace Seam

variable {t : Text} {parameters : List Token} {front : List Segment}

/-- where nothing but slashes stands in front of it -/
theorem front_eq (h : Seam t parameters front) (hnil : t.dropTrailing '/' = []) : front = [.plain '/'] := by
  have hscan := h.scan []
  rw [hnil, List.nil_append, segments_slash, segments, List.append_nil] at hscan
  exact hscan.symm

theorem parameters_eq (h : Seam t parameters front) (hnil : t.dropTrailing '/' = []) : parameters = [] := by
  rw [← h.made, h.front_eq hnil]
  rfl

/-- a piece that makes no placeholder, in front of what is kept -/
theorem cons {s : Segment} (h : Seam t parameters front) {t' : Text} (hs : s.IsLiteral)
    (hscan : ∀ rest, segments (t'.dropTrailing '/' ++ '/' :: rest) =
      s :: segments (t.dropTrailing '/' ++ '/' :: rest)) : Seam t' parameters (s :: front) where
  scan rest := by rw [hscan, h.scan, List.cons_append]
  sound := List.forall_mem_cons.2 ⟨hs.isSound, h.sound⟩
  made := by rw [List.filterMap_cons_none hs.token?_eq, h.made]

end Seam

/-- **The scan is between two pieces behind the seam**, whatever the template ends in -/
theorem exists_seam {t : Text} {pieces : List Segment} (hscans : Scans t pieces) (hsound : ∀ s ∈ pieces, s.IsSound) :
    ∃ front, Seam t (pieces.filterMap Segment.token?) front := by
  induction hscans with
  | nil => exact ⟨[.plain '/'], ⟨segments_slash, by simp [isSound_plain], rfl⟩⟩
  | lone =>
    -- the slash that joins becomes the second half of an escape pair
    exact ⟨[.escape '/'], ⟨segments.eq_3 '/', by simp [isSound_escape], rfl⟩⟩
  | @escape c t more _ ih =>
    obtain ⟨front, hfront⟩ := ih (List.forall_mem_cons.1 hsound).2
    by_cases hcut : t.dropTrailing '/' = [] ∧ c = '/'
    · -- the escaped slash is cut with those behind it, and the slash that joins takes its place
      obtain ⟨hnil, rfl⟩ := hcut
      have hrest : Text.dropTrailing ('/' :: t) '/' = [] := by rw [Uri.dropTrailing_cons, if_pos hnil, if_pos rfl]
      have hlone : Text.dropTrailing ('\\' :: '/' :: t) '/' = ['\\'] := by
        rw [Uri.dropTrailing_cons_of_stays fun _ => by decide, hrest]
      refine ⟨[.escape '/'], ⟨fun rest => ?_, by simp [isSound_escape], ?_⟩⟩
      · rw [hlone]
        exact segments.eq_3 '/' rest
      · rw [List.filterMap_cons_none rfl, List.filterMap_cons_none rfl, hfront.parameters_eq hnil]
        rfl
    · have hkept : Text.dropTrailing ('\\' :: c :: t) '/' = '\\' :: c :: t.dropTrailing '/' := by
        rw [Uri.dropTrailing_cons_of_stays fun _ => by decide,
          Uri.dropTrailing_cons_of_stays fun hnil hc => hcut ⟨hnil, hc⟩]
      refine ⟨_, hfront.cons (s := .escape c) trivial fun rest => ?_⟩
      rw [hkept]
      exact segments.eq_3 c _
  | @plain c t more hc _ ih =>
    obtain ⟨front, hfront⟩ := ih (List.forall_mem_cons.1 hsound).2
    by_cases hcut : t.dropTrailing '/' = [] ∧ c = '/'
    · obtain ⟨hnil, rfl⟩ := hcut
      refine ⟨front, ⟨fun rest => ?_, hfront.sound, hfront.made⟩⟩
      rw [Uri.dropTrailing_cons, if_pos hnil, if_pos rfl, ← hfront.scan, hnil]
    · refine ⟨_, hfront.cons (s := .plain c) trivial fun rest => ?_⟩
      rw [Uri.dropTrailing_cons_of_stays fun hnil hc => hcut ⟨hnil, hc⟩]
      exact segments_plain hc _
  | @braces inner t more hinner _ ih =>
    obtain ⟨hbraces, hrest⟩ := List.forall_mem_cons.1 hsound
    obtain ⟨front, hfront⟩ := ih hrest
    have hclose : Text.dropTrailing ('}' :: t) '/' = '}' :: t.dropTrailing '/' :=
      Uri.dropTrailing_cons_of_stays fun _ => by decide
    have hkept : Text.dropTrailing ('{' :: (inner ++ '}' :: t)) '/' = '{' :: (inner ++ '}' :: t.dropTrailing '/') := by
      rw [Uri.dropTrailing_cons_of_stays fun _ => by decide,
        Uri.dropTrailing_append (hclose ▸ List.cons_ne_nil _ _), hclose]
    refine ⟨.braces inner :: front, ⟨fun rest => ?_, List.forall_mem_cons.2 ⟨hbraces, hfront.sound⟩, ?_⟩⟩
    · have hsplit : '{' :: (inner ++ '}' :: t.dropTrailing '/') ++ '/' :: rest =
          '{' :: (inner ++ '}' :: (t.dropTrailing '/' ++ '/' :: rest)) := by simp
      rw [hkept, hsplit, segments_braces hinner, hfront.scan, List.cons_append]
    · rw [List.filterMap_cons, List.filterMap_cons, hfront.made]
  | @unclosed t h => exact absurd (.unclosed t) ((List.forall_mem_cons.1 hsound).1 0 _)

/-! ## Templates joined -/

/-- **Joining puts the placeholders of one template in front of those of the other** -/
theorem tokenized_join {p q : Text} {ps qs : List Token} (hp : Tokenized p ps) (hq : Tokenized q qs) :
    Tokenized (Uri.join p q) (ps ++ qs) := by
  have hempty : ∀ {parameters : List Token}, Tokenized [] parameters → parameters = [] := by
    rintro parameters ⟨tokens, htokens, rfl⟩
    rw [tokenize, segments] at htokens
    obtain rfl := Except.ok.inj htokens
    rfl
  by_cases hpnil : p = []
  · subst hpnil
    rwa [hempty hp, Uri.join_nil_left]
  by_cases hqnil : q = []
  · subst hqnil
    rwa [hempty hq, Uri.join_nil_right, List.append_nil]
  obtain ⟨hsound, rfl⟩ := tokenized_iff.1 hp
  obtain ⟨front, hfront⟩ := exists_seam (scans_segments p) hsound
  obtain ⟨hrest, rfl⟩ := tokenized_iff.1 (tokenized_dropLeading hq)
  rw [Uri.join_of_ne_nil hpnil hqnil, tokenized_iff, hfront.scan, List.filterMap_append, hfront.made]
  refine ⟨fun s hs => ?_, rfl⟩
  rcases List.mem_append.1 hs with hs | hs
  · exact hfront.sound s hs
  · exact hrest s hs

/-- **Templates joined one behind another have the placeholders of each**, in that order -/
theorem tokenized_foldr_join {pieces : List Text} {lists : List (List Token)}
    (h : List.Forall₂ Tokenized pieces lists) {t : Text} {parameters : List Token} (ht : Tokenized t parameters) :
    Tokenized (pieces.foldr Uri.join t) (lists.flatten ++ parameters) := by
  induction h with
  | nil => exact ht
  | cons hpiece _ ih =>
    rw [List.foldr_cons, List.flatten_cons, List.append_assoc]
    exact tokenized_join hpiece ih

end UriRouting.Template
