import MarkupForest.Profile.Basic

/-!
# The profile `semantic`

Plain HTML without any styling, for every type.
-/

namespace MarkupForest

namespace Semantic

def emit (subject : Subject) : Element :=
  Element.semantic subject.node subject.descriptor

def profile : Profile :=
  (Profile.bare ProfileId.semantic .html).withEmitter NodeType.all emit

end Semantic

end MarkupForest
