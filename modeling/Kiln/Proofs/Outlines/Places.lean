import Kiln.Tree.Node
import Kiln.Tree.Outline

/-!
# Outlines do not depend on places

The texts of an outline are those of the tokens, wherever these stand.  Only the row of an inline
block depends on a place, as it counts the lines that the body shows.
-/

namespace Kiln

/-- Texts that do not depend on where nodes stand are those of their detached copies. -/
theorem map_detachAll {α β : Type} [Node α] {f : α → β} (h : ∀ a, f (Node.detach a) = f a)
    (as : List α) : (Node.detachAll as).map f = as.map f := by
  rw [Node.detachAll, List.map_map]
  exact List.map_congr_left fun a _ => h a

theorem TypeName.outline_detach (t : TypeName) : (Node.detach t).outline = t.outline := by
  rw [outline, outline]
  simp only [Node.detach, Node.detachAll, List.length_map]
  rfl

theorem Expression.outline_detach (e : Expression) : e.detach.outline = e.outline := by
  induction e with
  | leaf t => rfl
  | binary left t right ihl ihr =>
      rw [detach, outline, outline, ihl, ihr]
      rfl

theorem ReturnStatement.outline_detach (s : ReturnStatement) :
    (Node.detach s).outline = s.outline := by
  have hvalues := map_detachAll (f := fun v : ListedValue => v.expression.outline)
    (fun v => v.expression.outline_detach) s.values.values
  have hempty : (Node.detachAll s.values.values).isEmpty = s.values.values.isEmpty :=
    List.isEmpty_map
  show (if (Node.detachAll s.values.values).isEmpty then _ else _) = s.outline
  rw [outline, hempty, ← hvalues]
  rfl

theorem FunctionDecl.outline_detach (f : FunctionDecl) : (Node.detach f).outline = f.outline := by
  have harguments : (Node.detach f).arguments.map (fun a => a.name.text ++ " " ++ a.type.outline) =
      f.arguments.map fun a => a.name.text ++ " " ++ a.type.outline :=
    map_detachAll (fun a => congrArg (a.name.text ++ " " ++ ·) a.type.outline_detach) f.arguments
  have hstatements : (Node.detach f).statements.map ReturnStatement.outline =
      f.statements.map ReturnStatement.outline :=
    map_detachAll ReturnStatement.outline_detach f.statements
  have hreturns : (Node.detach f).returns = f.returns.map Node.detach := rfl
  rw [outline, outline, harguments, hstatements, hreturns]
  cases f.returns with
  | none => rfl
  | some r =>
      have htypes : (Node.detach r).types.map (fun r => r.type.outline) =
          r.types.map fun r => r.type.outline :=
        map_detachAll (fun r => r.type.outline_detach) r.types
      simp only [Option.map_some, htypes]
      rfl

end Kiln
