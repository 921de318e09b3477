import Spriting.Digest.Blake2
import Spriting.Digest.Md5
import Spriting.Digest.Ripemd
import Spriting.Digest.Sha1
import Spriting.Digest.Sha2
import Spriting.Digest.Sha3
import Spriting.Digest.Sm3

/-!
# Digests by name

A digest goes by several names: those in common use, which may be written with
capitals, its number in the registry of objects, and names that are written in
one way only.
-/

namespace Spriting.Digest

/-- A digest and its names. -/
structure Kind where
  /-- The names that may be written with capitals, here in lower case. -/
  names : List String
  /-- The names that are written as they stand. -/
  fixedNames : List String := []
  /-- The digest of a message, if the digest has a length of its own. -/
  bytes? : List UInt8 → Option (List UInt8)

namespace Kind

def md5 : Kind where
  names := ["md5", "ssl3-md5", "1.2.840.113549.2.5"]
  bytes? m := some (Digest.md5 m)

def sha1 : Kind where
  names := ["sha1", "sha-1", "ssl3-sha1", "1.3.14.3.2.26"]
  bytes? m := some (Digest.sha1 m)

def sha224 : Kind where
  names := ["sha224", "sha-224", "sha2-224", "2.16.840.1.101.3.4.2.4"]
  bytes? m := some (Sha2.sha224.digest m)

def sha256 : Kind where
  names := ["sha256", "sha-256", "sha2-256", "2.16.840.1.101.3.4.2.1"]
  bytes? m := some (Sha2.sha256.digest m)

def sha384 : Kind where
  names := ["sha384", "sha-384", "sha2-384", "2.16.840.1.101.3.4.2.2"]
  bytes? m := some (Sha2.sha384.digest m)

def sha512 : Kind where
  names := ["sha512", "sha-512", "sha2-512", "2.16.840.1.101.3.4.2.3"]
  bytes? m := some (Sha2.sha512.digest m)

/-- A wide digest of which a part is shown. -/
def truncated (size : Nat) (number : String) : Kind where
  names :=
    let bits := toString (8 * size)
    ["sha512-" ++ bits, "sha-512/" ++ bits, "sha2-512/" ++ bits, number]
  fixedNames := ["sha512_" ++ toString (8 * size), "SHA512_" ++ toString (8 * size)]
  bytes? m := some ((Sha2.truncated size).digest m)

def sha3 (size : Nat) (number : String) : Kind where
  names := ["sha3-" ++ toString (8 * size), number]
  fixedNames := ["sha3_" ++ toString (8 * size)]
  bytes? m := some (Digest.sha3 size m)

/-- A relative of SHA-3 that goes on as long as it is asked to. -/
def endless (strength number : String) : Kind where
  names := ["shake-" ++ strength, "shake" ++ strength, number]
  fixedNames := ["shake_" ++ strength]
  bytes? _ := none

/-- The inner part of a keyed relative of SHA-3. -/
def inner (strength : String) : Kind where
  names := ["keccak-kmac-" ++ strength, "keccak-kmac" ++ strength]
  bytes? _ := none

def blake2b : Kind where
  names := ["blake2b-512", "blake2b512", "1.3.6.1.4.1.1722.12.2.1.16"]
  fixedNames := ["blake2b"]
  bytes? m := some (Blake2.wide.digest m)

def blake2s : Kind where
  names := ["blake2s-256", "blake2s256", "1.3.6.1.4.1.1722.12.2.2.8"]
  fixedNames := ["blake2s"]
  bytes? m := some (Blake2.narrow.digest m)

def ripemd : Kind where
  names := ["ripemd-160", "ripemd160", "ripemd", "rmd160", "1.3.36.3.2.1"]
  bytes? m := some (Digest.ripemd m)

def sm3 : Kind where
  names := ["sm3", "1.2.156.10197.1.401"]
  bytes? m := some (Digest.sm3 m)

/-- Two digests, one behind the other. -/
def md5AndSha1 : Kind where
  names := ["md5-sha1"]
  bytes? m := some (Digest.md5 m ++ Digest.sha1 m)

/-- The digest that says nothing. -/
def empty : Kind where
  names := ["null"]
  bytes? _ := some []

/-- The digests that a file name can carry. -/
def known : List Kind :=
  [md5, sha1, sha224, sha256, sha384, sha512,
   truncated 28 "2.16.840.1.101.3.4.2.5", truncated 32 "2.16.840.1.101.3.4.2.6",
   sha3 28 "2.16.840.1.101.3.4.2.7", sha3 32 "2.16.840.1.101.3.4.2.8",
   sha3 48 "2.16.840.1.101.3.4.2.9", sha3 64 "2.16.840.1.101.3.4.2.10",
   endless "128" "2.16.840.1.101.3.4.2.11", endless "256" "2.16.840.1.101.3.4.2.12",
   inner "128", inner "256", blake2b, blake2s, ripemd, sm3, md5AndSha1, empty]

/-- The digest of this name. -/
def ofName? (name : String) : Option Kind :=
  known.find? fun kind =>
    kind.fixedNames.contains name || kind.names.contains (name.map Char.toLower)

end Kind

end Spriting.Digest
