import Listing.Catalog
set_option autoImplicit false

namespace Listing.Sample.Heroes

def teams : Table :=
  { name := "teams"
    columns := [("id", .integer), ("name", .string), ("city", .string)]
    key := ["id"] }

def heroes : Table :=
  { name := "heroes"
    columns := [("id", .integer), ("name", .string), ("secret_name", .string), ("age", .integer),
      ("power", .float), ("active", .boolean), ("team_id", .integer), ("created_at", .datetime)]
    key := ["id"] }

def ratings : Table :=
  { name := "ratings"
    columns := [("id", .integer), ("hero_id", .integer), ("rating", .integer), ("note", .string)]
    key := ["id"] }

def tags : Table :=
  { name := "tags", columns := [("id", .integer), ("label", .string)], key := ["id"] }

def heroTags : Table :=
  { name := "hero_tags"
    columns := [("hero_id", .integer), ("tag_id", .integer)]
    key := ["hero_id", "tag_id"] }

def catalog : Catalog :=
  { models := [
      { name := "Team", table := teams
        relations := [
          { name := "heroes", target := "Hero", many := true, pairs := [("id", "team_id")] }] },
      { name := "Hero", table := heroes
        relations := [
          { name := "team", target := "Team", many := false, pairs := [("team_id", "id")] },
          { name := "ratings", target := "Rating", many := true, pairs := [("id", "hero_id")] },
          { name := "tags", target := "Tag", many := true, pairs := [("id", "hero_id")]
            link := some { table := "hero_tags", pairs := [("tag_id", "id")] } }] },
      { name := "Rating", table := ratings
        relations := [
          { name := "hero", target := "Hero", many := false, pairs := [("hero_id", "id")] }] },
      { name := "Tag", table := tags, relations := [] },
      { name := "HeroTag", table := heroTags, relations := [] }] }

end Listing.Sample.Heroes
