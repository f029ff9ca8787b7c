import PostMarkup.Attribute

namespace PostMarkup.Dialect.Link

def blog : Text := "/blog/".toList

/-- The directory in which a section is published. -/
def directory (id : Text) : Text :=
  match String.ofList id with
  | "1" | "53" | "62" => "/portfolio/".toList
  | "2" => blog
  | _ => "/".toList

/-- Where a link leads, as far as its attributes have been read. -/
structure Target where
  directory : Option Text := none
  file : Text := []

namespace Target

/-- An `id` counts only while no directory is chosen; a `name` always leads into the blog. -/
def read (target : Target) (entry : Attribute) : Target :=
  match String.ofList entry.key with
  | "id" => { target with directory := target.directory <|> some (Link.directory entry.value) }
  | "name" => ⟨some blog, entry.value ++ ".html".toList⟩
  | _ => target

/-- The address of a target, if one was named. -/
def href? (target : Target) : Option Text := target.directory.map (· ++ target.file)

end Target

/-- The marker by which search engines know a link of this site. -/
def marker : Attribute := ⟨"itemprop".toList, "url".toList⟩

/-- The marker leads and a computed address ends the list; it replaces any written one. -/
def resolve (attributes : List Attribute) : List Attribute :=
  let kept := attributes.filter fun entry =>
    entry.key ≠ "id".toList && entry.key ≠ "name".toList
  match (attributes.foldl Target.read {}).href? with
  | some address =>
    marker :: kept.filter (fun entry => entry.key ≠ "href".toList) ++
      [⟨"href".toList, address⟩]
  | none => marker :: kept

end PostMarkup.Dialect.Link

namespace PostMarkup.Dialect

/-- Attributes of an element that has none in the source. -/
def defaultAttributes? (source : Text) : Option (List Attribute) :=
  match String.ofList source with
  | "example" => some [⟨"class".toList, "code".toList⟩]
  | "center" => some [⟨"style".toList, "text-align: center;".toList⟩]
  | _ => none

/-- A class joins the classes that an element already has. -/
def addClass (name : Text) (attributes : List Attribute) : List Attribute :=
  Attribute.upsert "class".toList (fun present => present ++ ' ' :: name) name attributes

/-- The attributes of an element that is written under the name `output`. -/
def decorate (output : Text) (attributes : List Attribute) : List Attribute :=
  match String.ofList output with
  | "table" => addClass tableClass attributes
  | "acronym" => addClass "initialism".toList attributes
  | "a" => Link.resolve attributes
  | _ => attributes

end PostMarkup.Dialect
