import SqlKit.Proofs.Writing

/-!
# Sharing a compiler

One compiler may write many things, one after another, whole scripts among them.  What it wrote before,
or failed to write to the end, stays in its count and its list of values; a part that is compiled after
all that takes the values it bound itself away with it, and only the numbers of its placeholders show
that it was not the first.  Compiling a script starts the count anew.

    n.compile.on c = c.node n.draft                                    (Node.on_compile)
    requests keep the mode and the dialect of a compiler               (Compiler.kindred_after)
    a node behind others is the node alone, with its placeholders counted on   (compile_shared)
-/

namespace SqlKit

/-! ## Nodes -/

/-- A part of a script that can be compiled by itself. -/
inductive Node where
  | statement (s : Statement)
  | condition (c : Condition)
  | operand (o : Operand)
  | expr (e : Expr)
  | call (f : Call)
  | window (w : WindowCall)
  | windowSpec (s : WindowSpec)
  | order (o : OrderItem)
  | source (s : Source)
  | join (j : Join)
  | cte (c : Cte)
  | assignment (a : Assignment)
  | onConflict (c : OnConflict)

namespace Node

def draft : Node → Draft
  | statement s => s.draft
  | condition c => c.draft
  | operand o => o.draft
  | expr e => e.draft
  | call f => f.draft
  | window w => w.draft
  | windowSpec s => s.draft
  | order o => o.draft
  | source s => s.draft
  | join j => j.draft
  | cte c => c.draft
  | assignment a => a.draft
  | onConflict c => c.draft

def write : Node → Writer String
  | statement s => s.write
  | condition c => c.write
  | operand o => o.write
  | expr e => e.write
  | call f => f.write
  | window w => w.write
  | windowSpec s => s.write
  | order o => o.write
  | source s => s.write
  | join j => j.write
  | cte c => c.write
  | assignment a => a.write
  | onConflict c => c.write

/-- Writes a node and takes away the values that were bound meanwhile. -/
def compile (n : Node) : Writer Compiled := do
  let mark := (← get).params.length
  let sql ← n.write
  let params := (← get).params
  modify fun c => { c with params := params.take mark }
  return ⟨sql, params.drop mark⟩

theorem writes (n : Node) : Writes n.write n.draft := by
  cases n with
  | statement s => exact s.writes
  | condition c => exact c.writes
  | operand o => exact o.writes
  | expr e => exact e.writes
  | call f => exact f.writes
  | window w => exact w.writes
  | windowSpec s => exact s.writes
  | order o => exact o.writes
  | source s => exact s.writes
  | join j => exact j.writes
  | cte c => exact c.writes
  | assignment a => exact a.writes
  | onConflict c => exact c.writes

end Node

/-! ## What a node takes away -/

namespace Compiler

variable {c : Compiler} {x : Draft}

theorem take_params (c : Compiler) (vs : List Value) :
    (c.take vs).params.take c.params.length = c.params := by
  unfold take
  split <;> simp

theorem node_of_fault {m : Malformed} (h : x.fault = some m) :
    c.node x = (.error m.error, c.take x.params) := by
  simp [node, write, h]

/-- A compiler that binds numbers the placeholders of a node from its count on. -/
theorem node_of_sound (hc : c.inline = false) (h : x.fault = none) :
    c.node x = (.ok ⟨weave (x.texts c.dialect) (c.dialect.placeholders c.count x.params.length),
      x.params⟩, { c with count := c.count + x.params.length }) := by
  have hspelling : c.spelling = Piece.placeholders c.dialect := by simp [spelling, hc]
  have hspell : c.spell x =
      weave (x.texts c.dialect) (c.dialect.placeholders c.count x.params.length) := by
    rw [← Draft.spelled_placeholders, ← hspelling]
    rfl
  simp [node, write, take, h, hc, hspell]

end Compiler

/-- Taking values away from behind those that were there leaves the latter, whether the compiler was
fresh or not. -/
theorem Node.on_compile (n : Node) (c : Compiler) : n.compile.on c = c.node n.draft := by
  have hget : ∀ c : Compiler, Writer.on get c = (.ok c, c) := fun _ => rfl
  have hmodify : ∀ (f : Compiler → Compiler) (c : Compiler),
      Writer.on (modify f) c = (.ok ⟨⟩, f c) := fun _ _ => rfl
  rw [compile, Writer.on_bind, hget]
  dsimp only
  rw [Writer.on_bind, n.writes c, Compiler.node, Compiler.write]
  cases hfault : n.draft.fault with
  | some m => rfl
  | none =>
    dsimp only
    rw [Writer.on_bind, hget]
    dsimp only
    rw [Writer.on_bind, hmodify]
    dsimp only
    rw [Writer.on_pure, Compiler.take_params]

/-! ## Requests -/

namespace Compiler

/-- What a compiler is asked for. -/
inductive Request where
  | next
  | bind (v : Value)
  /-- The text of a node, whose values stay. -/
  | write (n : Node)
  | node (n : Node)
  | compile (s : Script)

/-- The compiler after a request, which succeeded or failed. -/
def serve (c : Compiler) : Request → Compiler
  | .next => c.next.2
  | .bind v => (c.bind v).2
  | .write n => (n.write.on c).2
  | .node n => (n.compile.on c).2
  | .compile s => (c.compile s).2

/-- The compiler after one request after another. -/
def after (c : Compiler) (rs : List Request) : Compiler := rs.foldl serve c

/-- Two compilers of one dialect and mode. -/
structure Kindred (c c' : Compiler) : Prop where
  dialect : c'.dialect = c.dialect
  inline : c'.inline = c.inline

theorem kindred_take (c : Compiler) (vs : List Value) : c.Kindred (c.take vs) := by
  unfold take
  split <;> exact ⟨rfl, rfl⟩

theorem kindred_node (c : Compiler) (x : Draft) : c.Kindred (c.node x).2 := by
  have htake := c.kindred_take x.params
  cases h : x.fault with
  | some m => rw [node_of_fault h]; exact htake
  | none => simp only [node, write, h]; exact ⟨htake.dialect, htake.inline⟩

theorem kindred_compile (c : Compiler) (s : Script) : c.Kindred (c.compile s).2 := by
  have htake := kindred_take { c with count := 0, params := [] } s.draft.params
  rw [compile, Script.writes s, write]
  cases s.draft.fault with
  | some m => exact ⟨htake.dialect, htake.inline⟩
  | none => exact ⟨htake.dialect, htake.inline⟩

theorem kindred_serve (c : Compiler) (r : Request) : c.Kindred (c.serve r) := by
  cases r with
  | next => exact ⟨rfl, rfl⟩
  | bind v => rw [serve, bind_eq]; exact c.kindred_take [v]
  | write n => rw [serve, n.writes c]; exact c.kindred_take n.draft.params
  | node n => rw [serve, n.on_compile]; exact c.kindred_node n.draft
  | compile s => exact c.kindred_compile s

/-- Requests keep the dialect and the mode of a compiler. -/
theorem kindred_after (c : Compiler) (rs : List Request) : c.Kindred (c.after rs) := by
  induction rs generalizing c with
  | nil => exact ⟨rfl, rfl⟩
  | cons r rs ih =>
    have hfirst := c.kindred_serve r
    have hrest := ih (c.serve r)
    exact ⟨hrest.dialect.trans hfirst.dialect, hrest.inline.trans hfirst.inline⟩

theorem Kindred.compile_fst {c c' : Compiler} (h : c.Kindred c') (s : Script) :
    (c'.compile s).1 = (c.compile s).1 := by
  have hspelling : c'.spelling = c.spelling := by simp only [spelling, h.dialect, h.inline]
  rw [Compiler.compile_fst, Compiler.compile_fst, hspelling, h.dialect, h.inline]

end Compiler

/-! ## Sharing -/

/-- **A compiler can be shared.**  After any requests, some of which may have failed halfway, a node
that a compiler succeeds to compile is the node that a fresh one compiles: the same texts with as many
placeholders between them, counted on from where the compiler stood, and the same values.  The values
that were bound before and not taken away are still there, and the count has gone on by those of the
node.  A node fails if and only if it fails for a fresh compiler, with the same error.  A script is
compiled as by a fresh compiler. -/
theorem Node.compile_shared (d : Dialect) (rs : List Compiler.Request) :
    let c := (Compiler.binding d).after rs
    (∀ (n : Node) (q : Compiled), (n.compile.on c).1 = .ok q →
      (∃ texts, texts.length = q.params.length + 1 ∧
        (n.compile.on (.binding d)).1 =
          .ok ⟨weave texts (d.placeholders 0 q.params.length), q.params⟩ ∧
        q.sql = weave texts (d.placeholders c.count q.params.length)) ∧
      (n.compile.on c).2.params = c.params ∧
      (n.compile.on c).2.count = c.count + q.params.length) ∧
    (∀ (n : Node) (e : Error),
      (n.compile.on c).1 = .error e ↔ (n.compile.on (.binding d)).1 = .error e) ∧
    ∀ s : Script, (c.compile s).1 = s.compile d := by
  intro c
  have hkin : (Compiler.binding d).Kindred c := Compiler.kindred_after _ rs
  have hdialect : c.dialect = d := hkin.dialect
  have hfresh : (Compiler.binding d).inline = false := rfl
  have hinline : c.inline = false := hkin.inline
  refine ⟨fun n q hq => ?_, fun n e => ?_, fun s => ?_⟩
  · rw [n.on_compile c] at hq ⊢
    cases hfault : n.draft.fault with
    | some m =>
      rw [Compiler.node_of_fault hfault] at hq
      cases hq
    | none =>
      rw [Compiler.node_of_sound hinline hfault, hdialect] at hq ⊢
      obtain rfl := Except.ok.inj hq
      refine ⟨⟨n.draft.texts d, Draft.length_texts d n.draft, ?_, rfl⟩, rfl, rfl⟩
      rw [n.on_compile, Compiler.node_of_sound hfresh hfault]
      rfl
  · rw [n.on_compile, n.on_compile]
    cases hfault : n.draft.fault with
    | some m => rw [Compiler.node_of_fault hfault, Compiler.node_of_fault hfault]
    | none =>
      rw [Compiler.node_of_sound hinline hfault, Compiler.node_of_sound hfresh hfault]
      simp
  · exact hkin.compile_fst s

/-- A script is compiled, a value is bound, and a condition fails behind the value it has bound already;
the next condition gets the fourth placeholder. -/
theorem Node.compile_shared_after_fault :
    let a : Condition := .compare (.named "a") .eq (.value (.int 5))
    let failing : Condition := a.and (.inQuery (.named "b") false { kind := .update })
    let n : Node := .condition (.compare (.named "b") .eq (.value (.int 9)))
    let rs : List Compiler.Request := [.compile (.ofStatement { wheres := [a] }), .bind (.int 7),
      .node (.condition failing)]
    let c := (Compiler.binding .postgres).after rs
    let q : Compiled := ⟨"\"b\" = $4", [.int 9]⟩
    (n.compile.on c).1 = .ok q ∧ c.params = [.int 7, .int 5] ∧
      (∃ texts, texts.length = 2 ∧
        (n.compile.on (.binding .postgres)).1 =
          .ok ⟨weave texts (Dialect.placeholders .postgres 0 1), [.int 9]⟩ ∧
        q.sql = weave texts (Dialect.placeholders .postgres 3 1)) ∧
      (n.compile.on c).2.params = [.int 7, .int 5] ∧ (n.compile.on c).2.count = 4 := by
  intro a failing n rs c q
  have hsql : weave (n.draft.texts .postgres) (Dialect.placeholders .postgres 3 1) = q.sql := by
    decide +kernel
  have hq : (n.compile.on c).1 = .ok q := by
    rw [n.on_compile, Compiler.node_of_sound rfl rfl]
    exact congrArg (fun sql => Except.ok (Compiled.mk sql [.int 9])) hsql
  obtain ⟨hfresh, hparams, hcount⟩ := (compile_shared .postgres rs).1 n q hq
  exact ⟨hq, rfl, hfresh, hparams, hcount⟩

end SqlKit
