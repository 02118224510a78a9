import MarkupForest.Profile.ComponentCall
import MarkupForest.Profile.InlineStyle
import MarkupForest.Profile.Semantic

/-!
# The standard profiles

The profiles that are always available, in the order in which they are listed.
-/

namespace MarkupForest

namespace ProfileRegistry

def standard : ProfileRegistry :=
  (((ProfileRegistry.empty.register InlineStyle.profile).register
    UtilityClass.profile).register ComponentCall.profile).register
      Semantic.profile

/-- What holds of the four standard profiles holds of any that is found. -/
theorem standard_cases {motive : Profile → Prop}
    (inlineStyle : motive InlineStyle.profile)
    (utilityClass : motive UtilityClass.profile)
    (componentCall : motive ComponentCall.profile)
    (semantic : motive Semantic.profile) {id : String} {p : Profile}
    (h : standard.get id = .ok p) : motive p := by
  have hfind := find?_of_get h
  unfold find? standard register at hfind
  simp only [OrderedMap.find?_insert] at hfind
  split at hfind
  · cases hfind
    exact semantic
  · split at hfind
    · cases hfind
      exact componentCall
    · split at hfind
      · cases hfind
        exact utilityClass
      · split at hfind
        · cases hfind
          exact inlineStyle
        · cases hfind

end ProfileRegistry

end MarkupForest
