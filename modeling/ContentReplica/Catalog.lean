import ContentReplica.ContentType
import ContentReplica.Record
import ContentReplica.Space

/-!
# A catalog

A small space to try a replica on: products with a brand, tags and an image, and articles that refer
to nothing.
-/

namespace ContentReplica.Catalog

/-- The default locale. -/
def english : String := "en-US"

/-- A locale that falls back to the default one. -/
def german : String := "de-DE"

/-- A locale that falls back to German. -/
def french : String := "fr-FR"

/-- The locales of the catalog. -/
def space : Space :=
  ⟨"catalog", "catalog",
    [{ Locale.new english true with aliases := ["en"] }, .new german false,
      { Locale.new french false with fallback? := some german }]⟩

/-! ## Content types -/

/-- Products. -/
def productType : ContentType :=
  .new "product" [{ (Field.new "name" .symbol).perLocale with unique := true },
    .new "price" .integer, .entryLink "brand" "brand", .entryLinks "tags" "tag",
    .assetLink "image", .scalars "keywords" .symbol]

/-- Brands. -/
def brandType : ContentType :=
  .new "brand" [(Field.new "name" .symbol).perLocale, .new "country" .symbol]

/-- Tags. -/
def tagType : ContentType := .new "tag" [.new "label" .symbol]

/-- Articles. -/
def articleType : ContentType :=
  .new "article" [(Field.new "title" .symbol).perLocale, .new "body" .text]

/-- The content types of the catalog. -/
def types : List ContentType := [productType, brandType, tagType, articleType]

/-! ## Records -/

/-- A product with its name and price. -/
def product (id name : String) (price : Int) : Entry :=
  let e := ((Entry.new id "product").withField "name" english (.str name)).withField "price" english
    (.int price)
  { e with sys := { e.sys with
      createdAt? := some "2024-01-01T00:00:00Z"
      updatedAt? := some "2024-01-02T00:00:00Z" } }

/-- A brand with its name. -/
def brand (id name : String) : Entry :=
  (Entry.new id "brand").withField "name" english (.str name)

/-- A tag with its label. -/
def tag (id label : String) : Entry :=
  (Entry.new id "tag").withField "label" english (.str label)

/-- An article with its title. -/
def article (id title : String) : Entry :=
  (Entry.new id "article").withField "title" english (.str title)

/-- A link to an entry. -/
def entryLink (id : String) : Json := linkTo "Entry" id

/-- A link to an asset. -/
def assetLink (id : String) : Json := linkTo "Asset" id

end ContentReplica.Catalog
