import SqlKit.Query.Compiler

/-!
# Templates

Once a dialect is chosen, a draft is a text with holes for the values it binds.  Filling the holes
with placeholders gives the statement to send, filling them with literals the statement to read; what
stands between the holes is the same in both.

    ofList (t.fill f k) = weave t.texts (fillings of the holes)         (ofList_fill)
    c.spell d = weave d.texts (what stands for its values)              (spell_eq_weave)
    joined drafts are spelled one after another                         (spelled_join)
-/

namespace SqlKit

/-! ## Text with holes -/

/-- A character of a text, or the place of a bound value. -/
inductive Glyph where
  | char (c : Char)
  | hole (v : Value)

/-- A text with holes for values. -/
abbrev Template := List Glyph

namespace Template

def ofText (s : String) : Template := s.toList.map .char

/-- A piece of a draft in a dialect; only bound values leave holes. -/
def ofPiece (d : Dialect) : Piece → Template
  | .text s => ofText s
  | .bound v => [.hole v]
  | .literal v => ofText (v.literal d)
  | .jsonObject => ofText (Piece.jsonObjectName d)

def ofPieces (d : Dialect) (ps : List Piece) : Template := ps.flatMap (ofPiece d)

/-- The characters, when `f` says what fills the holes and the first of them has number `k`. -/
def fill (f : Piece.Spelling) : Nat → Template → List Char
  | _, [] => []
  | k, .char c :: t => c :: fill f k t
  | k, .hole v :: t => (f k v).toList ++ fill f (k + 1) t

/-- The values of the holes. -/
def values : Template → List Value
  | [] => []
  | .char _ :: t => values t
  | .hole v :: t => v :: values t

/-- The characters between the holes, one list more than there are holes. -/
def between : Template → List (List Char)
  | [] => [[]]
  | .char c :: t =>
    match between t with
    | [] => [[c]]
    | s :: ss => (c :: s) :: ss
  | .hole _ :: t => [] :: between t

/-- The texts between the holes. -/
def texts (t : Template) : List String := (between t).map String.ofList

end Template

/-- Texts with fillings between them, one after another. -/
def weave : List String → List String → String
  | [], _ => ""
  | s :: _, [] => s
  | s :: ss, x :: xs => s ++ x ++ weave ss xs

/-- The next `n` placeholders when `k` parameters have been counted. -/
def Dialect.placeholders (d : Dialect) (k n : Nat) : List String :=
  (List.range n).map fun i => d.placeholder (k + i + 1)

namespace Draft

/-- The draft in a dialect. -/
def template (dialect : Dialect) (d : Draft) : Template := Template.ofPieces dialect d.pieces

/-- The text of a draft, when `f` says what stands for its values and the first has number `k`. -/
def spelled (dialect : Dialect) (f : Piece.Spelling) (k : Nat) (d : Draft) : String :=
  String.join (Piece.spell dialect f k d.pieces)

/-- What a draft says in a dialect around the values it binds. -/
def texts (dialect : Dialect) (d : Draft) : List String := (d.template dialect).texts

end Draft

/-! ## Lemmas -/

namespace Template

theorem ofPieces_append (d : Dialect) (ps qs : List Piece) :
    ofPieces d (ps ++ qs) = ofPieces d ps ++ ofPieces d qs := by
  simp [ofPieces]

theorem ofText_append (a b : String) : ofText (a ++ b) = ofText a ++ ofText b := by
  simp [ofText]

theorem fill_append (f : Piece.Spelling) (k : Nat) (t u : Template) :
    fill f k (t ++ u) = fill f k t ++ fill f (k + t.values.length) u := by
  induction t generalizing k with
  | nil => rfl
  | cons g t ih =>
    cases g with
    | char c => simp [fill, values, ih]
    | hole v =>
      have hk : k + 1 + (values t).length = k + ((values t).length + 1) := by omega
      simp [fill, values, ih, hk]

theorem values_append (t u : Template) : values (t ++ u) = values t ++ values u := by
  induction t with
  | nil => rfl
  | cons g t ih => cases g <;> simp [values, ih]

theorem fill_ofText (f : Piece.Spelling) (k : Nat) (s : String) : fill f k (ofText s) = s.toList := by
  unfold ofText
  induction s.toList with
  | nil => rfl
  | cons c cs ih => simp [fill, ih]

theorem values_ofText (s : String) : values (ofText s) = [] := by
  unfold ofText
  induction s.toList with
  | nil => rfl
  | cons c cs ih => simp [values, ih]

theorem values_ofPieces (d : Dialect) (ps : List Piece) :
    values (ofPieces d ps) = ps.filterMap Piece.value? := by
  induction ps with
  | nil => rfl
  | cons p ps ih =>
    have hp : ofPieces d (p :: ps) = ofPiece d p ++ ofPieces d ps := rfl
    rw [hp, values_append, ih]
    cases p <;> simp [ofPiece, values_ofText, List.filterMap_cons, Piece.value?, values]

/-- Spelling the pieces of a draft fills its template. -/
theorem toList_join_spell (d : Dialect) (f : Piece.Spelling) (k : Nat) (ps : List Piece) :
    (String.join (Piece.spell d f k ps)).toList = fill f k (ofPieces d ps) := by
  rw [String.toList_join]
  induction ps generalizing k with
  | nil => rfl
  | cons p ps ih =>
    have hp : ofPieces d (p :: ps) = ofPiece d p ++ ofPieces d ps := rfl
    rw [hp, fill_append]
    cases p with
    | text s => simp [Piece.spell, ofPiece, fill_ofText, values_ofText, ih]
    | bound v => simp [Piece.spell, ofPiece, fill, values, ih]
    | literal v => simp [Piece.spell, ofPiece, fill_ofText, values_ofText, ih]
    | jsonObject => simp [Piece.spell, ofPiece, fill_ofText, values_ofText, ih]

theorem length_between (t : Template) : (between t).length = t.values.length + 1 := by
  induction t with
  | nil => rfl
  | cons g t ih =>
    cases g with
    | char c =>
      cases h : between t with
      | nil => simp [h] at ih
      | cons s ss => simpa [between, values, h] using ih
    | hole v => simp [between, values, ih]

theorem length_texts (t : Template) : t.texts.length = t.values.length + 1 := by
  simp [texts, length_between]

/-- A filled template is its texts with the fillings between them. -/
theorem ofList_fill (f : Piece.Spelling) (k : Nat) (t : Template) :
    String.ofList (fill f k t) = weave t.texts (t.values.mapIdx fun i v => f (k + i) v) := by
  induction t generalizing k with
  | nil => rfl
  | cons g t ih =>
    cases g with
    | char c =>
      have hlen := length_between t
      have hc : fill f k (.char c :: t) = [c] ++ fill f k t := rfl
      rw [hc, String.ofList_append, ih]
      cases h : between t with
      | nil => simp [h] at hlen
      | cons s ss =>
        have hs : String.ofList (c :: s) = String.ofList [c] ++ String.ofList s := by
          rw [← String.ofList_append]; rfl
        cases hv : values t with
        | nil => simp [texts, between, h, values, hv, weave, hs]
        | cons v vs => simp [texts, between, h, values, hv, weave, hs, String.append_assoc]
    | hole v =>
      have hv : (fun (i : Nat) (w : Value) => f (k + (i + 1)) w) = fun i w => f (k + 1 + i) w := by
        funext i w; congr 1; omega
      simp only [fill, String.ofList_append, String.ofList_toList, ih, values, texts, between,
        List.map_cons, List.mapIdx_cons, weave, Nat.add_zero, hv]
      rw [show String.ofList [] = "" from rfl, String.empty_append]

end Template

namespace Draft

theorem values_template (dialect : Dialect) (d : Draft) : (d.template dialect).values = d.params :=
  Template.values_ofPieces dialect d.pieces

theorem toList_spelled (dialect : Dialect) (f : Piece.Spelling) (k : Nat) (d : Draft) :
    (d.spelled dialect f k).toList = (d.template dialect).fill f k :=
  Template.toList_join_spell dialect f k d.pieces

theorem template_append {dialect : Dialect} {a b : Draft} (h : a.fault = none) :
    (a ++ b).template dialect = a.template dialect ++ b.template dialect := by
  rw [template, pieces_append_of_sound h, Template.ofPieces_append]
  rfl

theorem spelled_append {dialect : Dialect} {f : Piece.Spelling} {k : Nat} {a b : Draft}
    (h : a.fault = none) :
    (a ++ b).spelled dialect f k =
      a.spelled dialect f k ++ b.spelled dialect f (k + a.params.length) := by
  apply String.toList_injective
  rw [String.toList_append, toList_spelled, toList_spelled, toList_spelled, template_append h,
    Template.fill_append, values_template]

theorem spelled_text {dialect : Dialect} {f : Piece.Spelling} (s : String) (k : Nat) :
    (text s).spelled dialect f k = s := by
  apply String.toList_injective
  rw [toList_spelled]
  simp [template, text, Template.ofPieces, Template.ofPiece, Template.fill_ofText]

theorem spelled_text_append {dialect : Dialect} {f : Piece.Spelling} (s : String) (x : Draft)
    (k : Nat) :
    (text s ++ x).spelled dialect f k = s ++ x.spelled dialect f k := by
  rw [spelled_append (by rfl), spelled_text]
  rfl

theorem spelled_bound {dialect : Dialect} {f : Piece.Spelling} (v : Value) (k : Nat) :
    (bound v).spelled dialect f k = f k v := by
  apply String.toList_injective
  rw [toList_spelled]
  simp [template, bound, Template.ofPieces, Template.ofPiece, Template.fill]

end Draft

/-- A draft is spelled by weaving what stands for its values into its texts. -/
theorem Draft.spelled_eq_weave (dialect : Dialect) (f : Piece.Spelling) (k : Nat) (d : Draft) :
    d.spelled dialect f k = weave (d.texts dialect) (d.params.mapIdx fun i v => f (k + i) v) := by
  rw [← String.ofList_toList (s := d.spelled dialect f k), toList_spelled, Template.ofList_fill,
    values_template]
  rfl

/-- The text of a draft is its template, filled as the compiler's mode says. -/
theorem Compiler.spell_eq_weave (c : Compiler) (d : Draft) :
    c.spell d =
      weave (d.texts c.dialect) (d.params.mapIdx fun i v => c.spelling (c.count + 1 + i) v) :=
  Draft.spelled_eq_weave c.dialect c.spelling (c.count + 1) d

theorem Draft.spelled_placeholders (dialect : Dialect) (k : Nat) (d : Draft) :
    d.spelled dialect (Piece.placeholders dialect) (k + 1) =
      weave (d.texts dialect) (dialect.placeholders k d.params.length) := by
  have hp : (d.params.mapIdx fun i _ => dialect.placeholder (k + 1 + i)) =
      dialect.placeholders k d.params.length :=
    List.ext_getElem (by simp [Dialect.placeholders])
      (by simp [Dialect.placeholders, Nat.add_right_comm])
  rw [spelled_eq_weave, ← hp]
  rfl

theorem Draft.length_texts (dialect : Dialect) (d : Draft) :
    (d.texts dialect).length = d.params.length + 1 := by
  rw [texts, Template.length_texts, values_template]

/-! ## Drafts in a row -/

namespace Draft

variable {d : Dialect} {f : Piece.Spelling} {sep : String}

theorem fault_append {a b : Draft} (h : (a ++ b).fault = none) : a.fault = none ∧ b.fault = none := by
  cases ha : a.fault with
  | some m =>
    rw [append_of_fault ha, ha] at h
    contradiction
  | none =>
    rw [append_of_sound ha] at h
    exact ⟨rfl, h⟩

theorem fault_paren (x : Draft) : (paren x).fault = x.fault := by
  cases h : x.fault with
  | some m => rw [paren, append_of_fault h, append_of_sound (by rfl), h]
  | none =>
    rw [paren, append_of_sound h, append_of_sound (by rfl)]
    rfl

/-- Joined drafts fail as the first of them that fails. -/
theorem fault_join (sep : String) (xs : List Draft) : (join sep xs).fault = xs.findSome? fault := by
  induction xs with
  | nil => rfl
  | cons x xs ih =>
    cases xs with
    | nil =>
      show x.fault = _
      cases hx : x.fault <;> simp [hx]
    | cons y ys =>
      show (x ++ (text sep ++ join sep (y :: ys))).fault = _
      cases hx : x.fault with
      | some m => simp [append_of_fault hx, hx]
      | none =>
        rw [append_of_sound hx, append_of_sound (by rfl), List.findSome?_cons, hx]
        exact ih

theorem params_join {xs : List Draft} (h : ∀ x ∈ xs, x.fault = none) :
    (join sep xs).params = xs.flatMap params := by
  induction xs with
  | nil => rfl
  | cons x xs ih =>
    cases xs with
    | nil => simp [join]
    | cons y ys =>
      have hrest := ih fun z hz => h z (by simp [hz])
      show (x ++ (text sep ++ join sep (y :: ys))).params = _
      rw [params_append_of_sound (h x (by simp)), params_append_of_sound (by rfl), hrest]
      rfl

@[simp] theorem params_text (s : String) : (text s).params = [] := rfl

@[simp] theorem fault_text (s : String) : (text s).fault = none := rfl

/-- The texts of drafts in a row, each counting on behind the values of those before it. -/
def spelledFrom (d : Dialect) (f : Piece.Spelling) : Nat → List Draft → List String
  | _, [] => []
  | k, x :: xs => x.spelled d f k :: spelledFrom d f (k + x.params.length) xs

theorem length_spelledFrom (k : Nat) (xs : List Draft) :
    (spelledFrom d f k xs).length = xs.length := by
  induction xs generalizing k with
  | nil => rfl
  | cons x xs ih => rw [spelledFrom, List.length_cons, ih, List.length_cons]

theorem spelledFrom_append (k : Nat) (xs ys : List Draft) :
    spelledFrom d f k (xs ++ ys) =
      spelledFrom d f k xs ++ spelledFrom d f (k + (xs.flatMap params).length) ys := by
  induction xs generalizing k with
  | nil => rfl
  | cons x xs ih => simp [spelledFrom, ih, Nat.add_assoc]

theorem spelled_join {xs : List Draft} (h : ∀ x ∈ xs, x.fault = none) (k : Nat) :
    (join sep xs).spelled d f k = sep.intercalate (spelledFrom d f k xs) := by
  induction xs generalizing k with
  | nil => rfl
  | cons x xs ih =>
    cases xs with
    | nil => simp [join, spelledFrom]
    | cons y ys =>
      have hrest := ih (fun z hz => h z (by simp [hz])) (k + x.params.length)
      show (x ++ (text sep ++ join sep (y :: ys))).spelled d f k = _
      rw [spelled_append (h x (by simp)), spelled_text_append, hrest]
      simp only [spelledFrom, String.intercalate_cons_cons, String.append_assoc]

end Draft

/-- A list of bound values does not fail. -/
theorem fault_boundList (vs : List Value) : (boundList vs).fault = none := by
  rw [boundList, Draft.fault_join, List.findSome?_eq_none_iff]
  intro x hx
  obtain ⟨v, -, rfl⟩ := List.mem_map.mp hx
  rfl

end SqlKit
