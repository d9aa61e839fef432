import ShapeMerge.Shape

namespace ShapeMerge

/-!
What becomes of formatted text when a shape is carried into a new graph: each
format is kept, or lowered to plain text.  A format without a rule is kept.
-/

inductive Treatment where
  | keep
  | lower
  deriving DecidableEq

structure FormatPolicy where
  rule? : Format → Option Treatment

namespace FormatPolicy

def lenient : FormatPolicy := ⟨fun _ => none⟩

instance : Inhabited FormatPolicy := ⟨lenient⟩

def allPlain : FormatPolicy := ⟨fun _ => some .lower⟩

def withRule (policy : FormatPolicy) (format : Format) (treatment : Treatment) :
    FormatPolicy :=
  ⟨fun other => if other = format then some treatment else policy.rule? other⟩

def treatment (policy : FormatPolicy) (format : Format) : Treatment :=
  (policy.rule? format).getD .keep

def lowers (policy : FormatPolicy) (format : Format) : Bool :=
  policy.treatment format = .lower

def lower (policy : FormatPolicy) : Shape → Shape
  | .formatted format =>
      if policy.lowers format then .plainText else .formatted format
  | shape => shape

/-- Of several rules for one format the last wins. -/
def ofRules (rules : List (Format × Treatment)) : FormatPolicy :=
  rules.foldl (fun policy rule => policy.withRule rule.1 rule.2) lenient

def rules (policy : FormatPolicy) : List (Format × Treatment) :=
  Format.all.filterMap (fun format => (policy.rule? format).map (format, ·))

theorem ext {left right : FormatPolicy}
    (h : ∀ format, left.rule? format = right.rule? format) :
    left = right := by
  cases left
  cases right
  congr
  exact funext h

instance : DecidableEq FormatPolicy := fun left right =>
  decidable_of_iff
    (∀ format ∈ Format.all, left.rule? format = right.rule? format)
    ⟨fun h => ext fun format => h format format.mem_all, fun h _ _ => by rw [h]⟩

end FormatPolicy

end ShapeMerge
