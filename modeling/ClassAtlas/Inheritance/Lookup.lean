import ClassAtlas.Model.Class
/-!
# Finding a class by name

A base is declared by a name, and the class that it stands for is looked for among the classes
of the compilation unit. A class is never its own base. Of several classes with the name a
complete one is taken, and the first of those; only if all are mere declarations, the first of
them (`ClassAtlas.Inheritance.lookup?`). The result is a position in the list, so two equal
declarations at different positions stay apart.
-/

namespace ClassAtlas

namespace Inheritance

/-- The position of the first class with the given name. -/
def firstNamed? (classes : List Class) (qualified : String) : Option (Fin classes.length) :=
  classes.findFinIdx? fun c => c.isNamed qualified

/-- The position of the first complete class with the given name. -/
def firstComplete? (classes : List Class) (qualified : String) : Option (Fin classes.length) :=
  classes.findFinIdx? fun c => c.isNamed qualified && c.info.isComplete

/-- **The class that a base stands for**, when a class with the given full name declares it. -/
def lookup? (classes : List Class) (qualified fromName : String) : Option (Fin classes.length) :=
  if Name.same qualified fromName then none
  else firstComplete? classes qualified <|> firstNamed? classes qualified

end Inheritance

end ClassAtlas
