/-!
# Kinds of packages

A package is a folder, called a collection, or one of several kinds of leaves that have content of
their own. Reading a label is total: what has no kind of its own is an unsupported leaf.
-/

namespace Salvage.Package

/-- What a package holds. -/
inductive Kind where
  | collection
  | pdf
  | text
  | image
  | slide
  | mri
  | video
  | timeSeries
  | tabular
  | unsupported
  deriving DecidableEq, Repr

namespace Kind

/-- Every kind, in the order in which messages list them. -/
def all : List Kind :=
  [.collection, .pdf, .text, .image, .slide, .mri, .video, .timeSeries, .tabular, .unsupported]

/-- The label of a kind, as it is stored and sent. -/
def label : Kind → String
  | .collection => "Collection"
  | .pdf => "PDF"
  | .text => "Text"
  | .image => "Image"
  | .slide => "Slide"
  | .mri => "MRI"
  | .video => "Video"
  | .timeSeries => "TimeSeries"
  | .tabular => "Tabular"
  | .unsupported => "Unsupported"

/-- The labels with their kinds. -/
def labelled : List (String × Kind) :=
  all.map fun k => (k.label, k)

/-- The kind of a stored label. -/
def ofLabel (s : String) : Kind :=
  (labelled.lookup s).getD .unsupported

/-- Only collections hold other packages. -/
def isCollection : Kind → Bool
  | .collection => true
  | _ => false

/-- The label of a kind leads back to it. -/
theorem lookup_label (k : Kind) : labelled.lookup k.label = some k := by
  cases k <;> rfl

end Kind

end Salvage.Package
