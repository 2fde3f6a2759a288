import Meshwork.Filter.Basic

/-!
# Registries

A registry is a list of filters in which no two share a name and no two
share an identifier: a filter that is registered takes the place of those it
shares one with. Filters are found by name or by any text of their
identifier.

A text that is both the name of one filter and an identifier of another stands for the
first.
-/

namespace Meshwork

/-- **The filters that are available**, in order of registration. No two of them share a name or
an identifier, as registering sees to it. -/
structure Registry where
  /-- The filters. -/
  filters : List Filter

namespace Registry

/-- No filters. -/
def empty : Registry := ⟨[]⟩

/-- Whether two filters share a name or an identifier. -/
def clash (f g : Filter) : Bool := f.info.name = g.info.name || f.info.uuid = g.info.uuid

/-- **Registers a filter**, in place of those that it clashes with. It comes last then, wherever
the others were. -/
def register (r : Registry) (f : Filter) : Registry :=
  ⟨r.filters.filter (fun g => !clash g f) ++ [f]⟩

/-- The filter of a name. -/
def byName? (r : Registry) (name : String) : Option Filter :=
  r.filters.find? fun f => f.info.name = name

/-- The filter of an identifier. -/
def byUuid? (r : Registry) (uuid : Uuid) : Option Filter :=
  r.filters.find? fun f => f.info.uuid = uuid

/-- **The filter that a text stands for**: its name, or else its identifier. Names go first, so a
name that spells an identifier hides it. -/
def resolve? (r : Registry) (id : String) : Option Filter :=
  (r.byName? id).or ((Uuid.ofText? id).bind r.byUuid?)

/-- What all filters are called, in order of their names. -/
def infos (r : Registry) : List FilterInfo :=
  (r.filters.map Filter.info).mergeSort fun a b => a.name ≤ b.name

end Registry

end Meshwork
